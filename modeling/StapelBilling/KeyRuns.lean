import StapelBilling.Deployment
import StapelBilling.Retries

/-! # Retry keys along a deployment

A retry key stands in a column of its row, and the row's metadata repeats it.  Rows from before
there was a column have the key in their metadata alone, and a caller may write there what it
likes.  Where no caller does, metadata never disagrees with the column, through clawbacks, merges
and erasures: the module copies metadata from row to row, and leaves the key out.

* `exec_keysInPlace`, `mergeWallets_keysInPlace`: what an operation and a merge keep.
* `runSystem_keysInPlace`: what holds in every state of a deployment.
-/
namespace StapelBilling
open Store

variable {env : Env} {digest : UserId → UserId → String} {w : ℕ} {db db' : Db}

theorem Transaction.mirrored_of_none {row : Transaction} (h : row.metadata .idempotencyKey = none) :
    row.Mirrored := by
  intro s hs
  rw [h] at hs
  cases hs

theorem Db.KeysInPlace.congr (hd : db.KeysInPlace) (hrows : db'.transactions = db.transactions)
    (hholds : db'.holds = db.holds) : db'.KeysInPlace where
  mirrored := fun t row hk => hd.mirrored t row (hrows ▸ hk)
  holds := fun h held hk => hd.holds h held (hholds ▸ hk)

/-- A row that spells no other key is posted. -/
theorem Db.KeysInPlace.post {row : Transaction} (hd : db.KeysInPlace)
    (hrows : db'.transactions = db.transactions.insert row) (hrow : row.Mirrored)
    (hholds : db'.holds = db.holds) : db'.KeysInPlace where
  mirrored := hd.mirrored.insert hrows hrow
  holds := fun h held hk => hd.holds h held (hholds ▸ hk)

/-! ## Wallet operations -/

variable (env w) in
theorem swept_keysInPlace (hd : db.KeysInPlace) : (db.swept env w).KeysInPlace := by
  refine Moves.invariant (I := Db.KeysInPlace) (fun m _ _ hm hI hs => hs.keysInPlace ?_ hI)
    (expireDueLots_moves env w (P := Move.IsSweep) trivial (fun _ => trivial) db) hd
  cases m <;> first | exact hm.elim | exact trivial

theorem settleDebts_keysInPlace {n : ℤ} (hd : db.KeysInPlace)
    (h : settleDebts env w db = .ok (n, db')) : db'.KeysInPlace := by
  refine Moves.invariant (I := Db.KeysInPlace) (fun m _ _ hm hI hs => hs.keysInPlace ?_ hI)
    (settleDebts_ok (P := Move.IsCollect) (fun _ _ _ _ => trivial) h) hd
  cases m <;> first | exact hm.elim | exact trivial

/-- **A reversal keeps the keys in place**: what gives back and what marks says nothing of keys. -/
theorem Step.reversal_keysInPlace {m : Move} {k : ℕ} (h : Step env w m db db') (hm : m.OfReversal k)
    (hd : db.KeysInPlace) : db'.KeysInPlace := by
  cases h with
  | collect hdebt hw hopen hpos hle htaken hdrawn =>
    exact (Step.collect hdebt hw hopen hpos hle htaken hdrawn).keysInPlace trivial hd
  | cancel => exact hd.congr rfl rfl
  | @restore _ k grant givenBack eventId _ =>
    have hswept := @swept_keysInPlace env w { db with
      lots := db.lots.insert (restoredLot env w grant givenBack db) } (hd.congr rfl rfl)
    refine hswept.post rfl (Transaction.mirrored_of_none ?_) rfl
    show (((Metadata.empty.set .disputeWon (.bool true)).set .reverses (.ref .transaction k)).set
      .stripeEventId (jsonText eventId)) .idempotencyKey = none
    rw [Metadata.set_of_ne _ _ (by decide), Metadata.set_of_ne _ _ (by decide),
      Metadata.set_of_ne _ _ (by decide)]
    rfl
  | @mark _ k requested eventId =>
    refine ⟨fun t row ht => ?_, hd.holds⟩
    rw [markReversed_transactions, Table.get?_modify] at ht
    split at ht
    · obtain ⟨old, hold, rfl⟩ := Option.map_eq_some_iff.mp ht
      intro s hs
      refine hd.mirrored t old hold s ?_
      rw [← hs]
      dsimp only
      rw [Metadata.set_of_ne _ _ (by decide), Metadata.set_of_ne _ _ (by decide)]
    · exact hd.mirrored t row ht
  | _ => exact hm.elim

/-- **A wallet operation keeps the keys in place**, where its caller hides none. -/
theorem exec_keysInPlace {c : WalletCall} (hc : c.metadata .idempotencyKey = none)
    (hd : db.KeysInPlace) (h : c.exec env db = .ok db') : db'.KeysInPlace := by
  by_cases hplain : c.IsPlain
  · exact Moves.invariant (I := Db.KeysInPlace)
      (fun _ _ _ hm hI hs => hs.keysInPlace (hm.unkeyed hplain hc hd) hI) (exec_moves h) hd
  cases c with
  | clawBackGrant grant credits description metadata =>
    simp only [WalletCall.exec] at h
    split at h
    · rename_i txn htxn
      obtain ⟨r, hok⟩ := map_snd_ok h
      obtain ⟨-, requested, taken, forgiven, -, -, -, hdraws, hrow⟩ := clawBackGrant_cases hok
      obtain ⟨-, rfl⟩ := Prod.mk.inj hrow
      have hswept := swept_keysInPlace env txn.wallet hd
      -- A clawback's row drops the retry key of whoever asked for it.
      have hclean : (clawbackMetadata metadata grant requested (drawn taken) forgiven
          (requested - drawn taken - forgiven) taken) .idempotencyKey = none := by
        unfold clawbackMetadata cleanMetadata
        rw [Metadata.set_of_ne _ _ (by decide), Metadata.set_of_ne _ _ (by decide),
          Metadata.set_of_ne _ _ (by decide), Metadata.set_of_ne _ _ (by decide),
          Metadata.set_of_ne _ _ (by decide), Metadata.set_of_ne _ _ (by decide)]
        simp [Metadata.erase]
      split
      · refine hswept.post rfl (Transaction.mirrored_of_none ?_) rfl
        dsimp only
        rw [Metadata.set_of_ne _ _ (by decide)]
        exact hclean
      · exact hswept.post rfl (Transaction.mirrored_of_none hclean) rfl
    · cases h
  | reverseClawback k eventId =>
    simp only [WalletCall.exec] at h
    split at h
    · obtain ⟨n, hok⟩ := map_snd_ok h
      exact Moves.invariant (I := Db.KeysInPlace)
        (fun _ _ _ hm hI hs => hs.reversal_keysInPlace hm hI) (reverseClawback_moves hok) hd
    · cases h
  | _ => exact absurd trivial hplain

/-! ## The module -/

/-- **A step on the books keeps the keys in place**, where the host hides none. -/
theorem BookStep.keysInPlace {terms : HostTerms} (h : BookStep terms env db db')
    (hterms : terms.keyless = true) (hd : db.KeysInPlace) : db'.KeysInPlace := by
  cases h with
  | call c _ hmetadata hok => exact exec_keysInPlace (hmetadata.keyless hterms) hd hok
  | @sale credited args t amountCents user currency extra hkey hprice hmetadata hok =>
    have hexec : (WalletCall.credit args).exec env db = .ok credited :=
      congrArg (Except.map Prod.snd) hok
    exact (exec_keysInPlace (c := .credit args) (hmetadata.keyless hterms) hd hexec).congr rfl rfl
  | openWallet user =>
    rw [getOrCreateWallet_lock]
    rcases hlock : lockWallet user db with ⟨w, db₁⟩
    rcases lockWallet_cases hlock with ⟨rfl, -⟩ | ⟨-, rfl, -⟩
    · exact hd
    · exact hd.congr rfl rfl
  | patch _ hok =>
    unfold patchWallet saveWallet at hok
    split at hok
    · split at hok
      · cases hok
      · obtain rfl := Except.ok.inj hok
        exact hd.congr rfl rfl
    · cases hok
  | stamp sub =>
    unfold stampSubscriptionPeriod
    split
    · exact hd.congr rfl rfl
    · exact hd
  | beside hsame => exact hd.congr hsame.transactions hsame.holds

theorem Books.keysInPlace {terms : HostTerms} (h : Books terms env db db')
    (hterms : terms.keyless = true) (hd : db.KeysInPlace) : db'.KeysInPlace := by
  induction h with
  | refl => exact hd
  | tail _ hlast ih => exact hlast.keysInPlace hterms ih

/-- An erasure drops the keys in metadata. -/
theorem eraseSubject_keysInPlace {subjectType : String} {subject : Option UserId} (hd : db.KeysInPlace)
    (h : eraseSubject subjectType subject db = some db') : db'.KeysInPlace := by
  unfold eraseSubject at h
  split at h
  · cases h
  · rename_i user
    split at h
    · cases h
    · obtain rfl := Option.some.inj h
      refine ⟨fun t row ht => ?_, fun k held hk => ?_⟩
      · obtain ⟨old, hold, rfl⟩ := Option.map_eq_some_iff.mp ((Table.get?_update _ _ _).symm.trans ht)
        split
        · exact Transaction.mirrored_of_none rfl
        · exact hd.mirrored t old hold
      · obtain ⟨old, hold, rfl⟩ := Option.map_eq_some_iff.mp ((Table.get?_update _ _ _).symm.trans hk)
        split
        · rfl
        · exact hd.holds k old hold

theorem forfeitLots_keysInPlace (lots : List (ℕ × CreditLot)) (running : ℤ) (hd : db.KeysInPlace) :
    (forfeitLots env w lots running db).KeysInPlace := by
  induction lots generalizing running db with
  | nil => exact hd
  | cons r lots ih =>
    refine ih _ (hd.post rfl (Transaction.mirrored_of_none ?_) rfl)
    dsimp only
    rw [Metadata.set_of_ne _ _ (by decide), Metadata.set_of_ne _ _ (by decide),
      Metadata.set_of_ne _ _ (by decide)]
    rfl

theorem stripped_keysInPlace {merged : ℕ} (hd : db.KeysInPlace) :
    (db.stripped env merged).KeysInPlace := by
  have hswept := swept_keysInPlace env merged hd
  unfold Db.stripped
  rcases forfeited_cases env merged (db.swept env merged) with ⟨hsame, -⟩ | hforfeited
  · rw [hsame]
    exact hswept
  · rw [hforfeited]
    exact (forfeitLots_keysInPlace _ _ hswept).congr rfl rfl

theorem folded_keysInPlace {merged survivor : ℕ} (hd : db.KeysInPlace) :
    (db.folded merged survivor).KeysInPlace where
  mirrored := by
    intro t row ht
    obtain ⟨old, hold, rfl⟩ := Option.map_eq_some_iff.mp ((folded_row t).symm.trans ht)
    split
    · exact hd.mirrored t old hold
    · exact hd.mirrored t old hold
  holds := by
    intro h held hk
    obtain ⟨key, hfolded⟩ := @folded_hold db merged survivor h
    obtain ⟨old, hold, rfl⟩ := Option.map_eq_some_iff.mp (hfolded.symm.trans hk)
    exact hd.holds h old hold

/-- **A merge keeps the keys in place**: the row it books has its key in both places. -/
theorem mergeWallets_keysInPlace {fromUser intoUser : UserId} {counts : MergeCounts}
    (hd : db.KeysInPlace) (h : mergeWallets env digest fromUser intoUser db = .ok (counts, db')) :
    db'.KeysInPlace := by
  rcases mergeWallets_cases h with ⟨-, rfl, -⟩ | ⟨-, ⟨-, ⟨subscriptions, rfl⟩, -⟩ |
    ⟨merged, wallet, survivor, db₁, hmerged, hsurvivor, hlocked⟩⟩
  · exact hd
  · exact hd.congr rfl rfl
  · have hopened : db₁.KeysInPlace := by
      rcases survivorWallet_cases hsurvivor with ⟨rfl, -⟩ | ⟨-, -, -, rfl⟩
      · exact hd
      · exact hd.congr rfl rfl
    obtain ⟨subscriptions, n, hsettle, -, -⟩ := mergeLocked_cases hlocked
    have hfolded : ((db₁.stripped env merged).folded merged survivor).KeysInPlace :=
      folded_keysInPlace (stripped_keysInPlace hopened)
    have hbooked : (db₁.booked env (mergeIdempotencyKey digest fromUser intoUser) merged
        survivor).KeysInPlace := by
      refine (swept_keysInPlace env survivor hfolded).post rfl (fun s hs => ?_) rfl
      dsimp only at hs
      rw [Metadata.set_same] at hs
      exact Json.str.inj (Option.some.inj hs)
    have hsubs : Db.KeysInPlace { db₁.booked env (mergeIdempotencyKey digest fromUser intoUser) merged
        survivor with subscriptions } := hbooked.congr rfl rfl
    exact settleDebts_keysInPlace hsubs hsettle

/-! ## Runs -/

/-- **One call keeps the keys in place.** -/
theorem SystemCall.exec_keysInPlace {terms : HostTerms} {c : SystemCall} {s : Deployment}
    (hfair : c.Fair terms) (hterms : terms.keyless = true) (hd : s.inbox.db.KeysInPlace) :
    (c.exec digest env s).inbox.db.KeysInPlace := by
  rcases @SystemCall.exec_cases terms env digest c s hfair with
    hbooks | ⟨source, target, counts, -, hok⟩ | ⟨subjectType, subject, -, hok⟩
  · exact hbooks.keysInPlace hterms hd
  · exact mergeWallets_keysInPlace hd hok
  · exact eraseSubject_keysInPlace hd hok

/-- **The keys are in place in every state of a deployment** that was reached from a database
without wallets, where no caller hides a retry key in its metadata. -/
theorem runSystem_keysInPlace (hbare : db.Bare) {calls : List (Env × SystemCall)}
    (hfair : ∀ c ∈ calls, c.2.Fair { keyless := true }) :
    (runSystem digest calls { inbox := { db } }).inbox.db.KeysInPlace := by
  refine Store.run_invariant (I := fun s : Deployment => s.inbox.db.KeysInPlace) ?_
    hbare.filed.toKeysInPlace
  intro c hc s s' hd hok
  obtain rfl := Except.ok.inj hok
  exact SystemCall.exec_keysInPlace (hfair c hc) rfl hd

end StapelBilling
