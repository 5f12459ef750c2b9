import StapelBilling.BundleReports
import StapelBilling.KeyRuns
import StapelBilling.Owners

/-! # A grant that is asked for twice

A manual grant under a key is made once.  The key stands in a row of the user's wallet, and
rows and wallets stay, whatever comes to the deployment: until the account is folded into
another one or erased, the same grant asked for again finds its row and writes nothing.  The
admin's form draws its token when the page is rendered, so a form that is submitted again is
the same grant on every wallet that was ticked.

* `Db.Follows`: what is kept of one user's account.
* `SystemCall.exec_follows`: every call keeps it but a merge of that account and its erasure.
* `Db.Granted`: the account has its grant.
* `resubmitted_form_grants_nothing`: the form that comes in again, whatever came in between.
-/
namespace StapelBilling
open Store

variable {terms : HostTerms} {env : Env} {digest : UserId → UserId → String} {db db' db'' : Db} {user : UserId}
  {key : String} {w : ℕ}

/-! ## An account -/

/-- **What is kept of a user's account**: their wallet, as long as they have one, and in it
every row with its key. -/
structure Db.Follows (user : UserId) (db db' : Db) : Prop where
  kept : ∀ k, db.OwnedBy k user → db'.OwnedBy k user
  origin : ∀ k, db'.OwnedBy k user → db.OwnedBy k user ∨ ∀ j, ¬ db.OwnedBy j user
  rows : ∀ w t row, db.OwnedBy w user → db.transactions.get? t = some row → row.wallet = w →
    ∃ row', db'.transactions.get? t = some row' ∧ row'.wallet = w ∧
      row'.idempotencyKey = row.idempotencyKey

namespace Db.Follows

theorem refl (user : UserId) (db : Db) : Db.Follows user db db :=
  ⟨fun _ h => h, fun _ h => Or.inl h, fun _ _ row _ hk hw => ⟨row, hk, hw, rfl⟩⟩

theorem trans (h : Db.Follows user db db') (h' : Db.Follows user db' db'') :
    Db.Follows user db db'' where
  kept k hk := h'.kept k (h.kept k hk)
  origin k hk := by
    rcases h'.origin k hk with hmiddle | hnone
    · exact h.origin k hmiddle
    · exact Or.inr fun j hj => hnone j (h.kept j hj)
  rows w t row ho hk hw := by
    obtain ⟨row₁, hk₁, hw₁, hkey₁⟩ := h.rows w t row ho hk hw
    obtain ⟨row₂, hk₂, hw₂, hkey₂⟩ := h'.rows w t row₁ (h.kept w ho) hk₁ hw₁
    exact ⟨row₂, hk₂, hw₂, hkey₂.trans hkey₁⟩

/-- Wallets that keep their owners, and rows that stay. -/
theorem of_owners (howners : ∀ k, db'.OwnedBy k user ↔ db.OwnedBy k user)
    (hrows : ∀ t row, db.transactions.get? t = some row → ∃ row',
      db'.transactions.get? t = some row' ∧ row'.wallet = row.wallet ∧
        row'.idempotencyKey = row.idempotencyKey) : Db.Follows user db db' where
  kept k hk := (howners k).mpr hk
  origin k hk := Or.inl ((howners k).mp hk)
  rows w t row _ hk hw := by
    obtain ⟨row', hk', hw', hkey⟩ := hrows t row hk
    exact ⟨row', hk', hw'.trans hw, hkey⟩

end Db.Follows

/-! ## What keeps an account -/

theorem Moves.rows_keyed {P : Move → Prop} (h : Moves env w P db db') {t : ℕ} {row : Transaction}
    (hk : db.transactions.get? t = some row) : ∃ row', db'.transactions.get? t = some row' ∧
      row'.wallet = row.wallet ∧ row'.idempotencyKey = row.idempotencyKey := by
  obtain ⟨row', hk', hsame⟩ := h.grows.transactions.kept t row hk
  have hsame : row' = { row with metadata := row'.metadata } := hsame
  exact ⟨row', hk', by rw [hsame], by rw [hsame]⟩

theorem WalletsSynced.ownedBy (h : WalletsSynced db.wallets db'.wallets) (k : ℕ) :
    db'.OwnedBy k user ↔ db.OwnedBy k user := by
  constructor
  · rintro ⟨wallet', hk', huser⟩
    rcases h.grows.origin k wallet' hk' with ⟨wallet, hk, hsame⟩ | ⟨-, hnew⟩
    · exact ⟨wallet, hk, hsame.user.symm.trans huser⟩
    · exact hnew.elim
  · rintro ⟨wallet, hk, huser⟩
    obtain ⟨wallet', hk', hsame⟩ := h.grows.kept k wallet hk
    exact ⟨wallet', hk', hsame.user.trans huser⟩

/-- A wallet that is opened is opened for a user who has none. -/
theorem insert_follows {opened : Wallet} {other : UserId} (hopened : opened.user = some other)
    (hnew : ∀ k wallet, db.wallets.get? k = some wallet → wallet.user ≠ some other) :
    Db.Follows user db { db with wallets := db.wallets.insert opened } where
  kept := by
    rintro k ⟨wallet, hk, huser⟩
    exact ⟨wallet, Table.get?_insert_of_some _ hk, huser⟩
  origin := by
    rintro k ⟨wallet, hk, huser⟩
    have hk : (db.wallets.insert opened).get? k = some wallet := hk
    rw [Table.get?_insert] at hk
    split at hk
    · obtain rfl := Option.some.inj hk
      have hsame : other = user := Option.some.inj (hopened.symm.trans huser)
      exact Or.inr fun j ⟨old, hj, hold⟩ => hnew j old hj (hsame ▸ hold)
    · exact Or.inl ⟨wallet, hk, huser⟩
  rows := fun _ _ row _ hk hw => ⟨row, hk, hw, rfl⟩

theorem Moves.follows {P : Move → Prop} (h : Moves env w P db db') : Db.Follows user db db' := by
  refine Moves.invariant (I := fun db' => Db.Follows user db db') ?_ h (.refl user db)
  rintro m db₁ db₂ - hI hs
  refine hI.trans ?_
  have hrows : ∀ t row, db₁.transactions.get? t = some row → ∃ row',
      db₂.transactions.get? t = some row' ∧ row'.wallet = row.wallet ∧
        row'.idempotencyKey = row.idempotencyKey :=
    fun t row hk => Moves.rows_keyed (@Moves.single _ _ (fun _ => True) _ _ _ trivial hs) hk
  by_cases hm : m.IsOpen
  · cases hs with
    | openWallet hw hnew => exact insert_follows rfl hnew
    | _ => exact hm.elim
  · exact .of_owners (hs.wallets hm).ownedBy hrows

theorem lockWallet_follows (other : UserId) : Db.Follows user db (lockWallet other db).2 := by
  rcases hlock : lockWallet other db with ⟨w, db₁⟩
  rcases lockWallet_cases hlock with ⟨rfl, -⟩ | ⟨-, rfl, hnew⟩
  · exact .refl user _
  · exact insert_follows rfl hnew

theorem stampSubscriptionPeriod_frame (sub : Subscription) (db : Db) :
    (stampSubscriptionPeriod sub db).wallets = db.wallets ∧
      (stampSubscriptionPeriod sub db).transactions = db.transactions := by
  unfold stampSubscriptionPeriod
  split <;> exact ⟨rfl, rfl⟩

theorem Db.Follows.of_eq (hwallets : db'.wallets = db.wallets)
    (hrows : db'.transactions = db.transactions) : Db.Follows user db db' := by
  refine .of_owners (fun k => ?_) fun t row hk => ⟨row, hrows ▸ hk, rfl, rfl⟩
  unfold Db.OwnedBy
  rw [hwallets]

/-- **A step on the books keeps every account.** -/
theorem BookStep.follows (h : BookStep terms env db db') : Db.Follows user db db' := by
  cases h with
  | call c _ _ hok => exact (exec_moves hok).follows
  | @sale credited args t amountCents other currency extra hkey hprice hmetadata hok =>
    have hexec : (WalletCall.credit args).exec env db = .ok credited :=
      congrArg (Except.map Prod.snd) hok
    exact (exec_moves hexec).follows.trans (.of_eq rfl rfl)
  | openWallet other =>
    rw [getOrCreateWallet_lock]
    exact lockWallet_follows other
  | @patch _ update w wallet hget hok =>
    unfold patchWallet saveWallet at hok
    split at hok
    · split at hok
      · cases hok
      · obtain rfl := Except.ok.inj hok
        refine .of_owners (fun k => ?_) fun t row hk => ⟨row, hk, rfl, rfl⟩
        have hrow : (db.wallets.modify w fun _ => update.apply wallet).get? k =
            if k = w then (db.wallets.get? k).map fun _ => update.apply wallet
            else db.wallets.get? k := Table.get?_modify _ _ _ _
        unfold Db.OwnedBy
        dsimp only
        rw [hrow]
        split
        · rename_i hkw
          rw [hkw, hget]
          simp [WalletUpdate.apply]
        · exact Iff.rfl
    · cases hok
  | stamp sub =>
    obtain ⟨hwallets, hrows⟩ := stampSubscriptionPeriod_frame sub db
    exact .of_eq hwallets hrows
  | beside hsame => exact .of_eq hsame.wallets hsame.transactions

theorem Books.follows (h : Books terms env db db') : Db.Follows user db db' := by
  induction h with
  | refl => exact .refl user db
  | tail _ hlast ih => exact ih.trans hlast.follows

/-- Scrubbing free text keeps every row, and its key with it. -/
theorem scrubFreeText_rows {erased : UserId} {t : ℕ} {row : Transaction}
    (hk : db.transactions.get? t = some row) : ∃ row',
      (scrubFreeText erased db).transactions.get? t = some row' ∧ row'.wallet = row.wallet ∧
        row'.idempotencyKey = row.idempotencyKey := by
  have hgrows : Store.Grows (fun row row' : Transaction => row'.wallet = row.wallet ∧
      row'.idempotencyKey = row.idempotencyKey) (fun _ => False) db.transactions
      (scrubFreeText erased db).transactions := by
    refine Store.Grows.of_map rfl (Table.get?_update _ _) fun k row _ => ?_
    split <;> exact ⟨rfl, rfl⟩
  exact hgrows.kept t row hk

/-- An erasure keeps the accounts of everybody else. -/
theorem eraseSubject_follows {subjectType : String} {subject : Option UserId}
    (hother : subject ≠ some user) (h : eraseSubject subjectType subject db = some db') :
    Db.Follows user db db' := by
  unfold eraseSubject at h
  split at h
  · cases h
  · rename_i erased
    split at h
    · cases h
    · obtain rfl := Option.some.inj h
      have hne : erased ≠ user := fun he => hother (congrArg some he)
      refine .of_owners (fun k => ?_) fun t row hk =>
        @scrubFreeText_rows (eraseSubscriptions erased db) erased t row hk
      unfold Db.OwnedBy
      dsimp only
      rw [Table.get?_update]
      constructor
      · rintro ⟨wallet', hk', huser⟩
        obtain ⟨wallet, hk, rfl⟩ := Option.map_eq_some_iff.mp hk'
        refine ⟨wallet, hk, ?_⟩
        split at huser
        · cases huser
        · exact huser
      · rintro ⟨wallet, hk, huser⟩
        have hkept : wallet.user ≠ some erased :=
          fun he => hne (Option.some.inj (he.symm.trans huser))
        have hk : (scrubFreeText erased (eraseSubscriptions erased db)).wallets.get? k =
            some wallet := hk
        exact ⟨wallet, by rw [hk, Option.map_some, if_neg hkept], huser⟩

/-- The fold of one wallet into another keeps the accounts of all but its owner. -/
theorem folded_follows {merged survivor : ℕ} {owner : UserId} (hmerged : db.OwnedBy merged owner)
    (hne : owner ≠ user) : Db.Follows user db (db.folded merged survivor) := by
  have hother : ¬ db.OwnedBy merged user := by
    rintro ⟨wallet, hk, huser⟩
    obtain ⟨wallet', hk', howner⟩ := hmerged
    obtain rfl := Option.some.inj (hk.symm.trans hk')
    exact hne (Option.some.inj (howner.symm.trans huser))
  have howned : ∀ k, (db.folded merged survivor).OwnedBy k user ↔ db.OwnedBy k user := by
    intro k
    by_cases hk : k = merged
    · subst hk
      refine iff_of_false ?_ hother
      rintro ⟨wallet, hget, huser⟩
      rw [folded_wallet, if_pos rfl] at hget
      obtain ⟨old, -, rfl⟩ := Option.map_eq_some_iff.mp hget
      cases huser
    · unfold Db.OwnedBy
      rw [folded_wallet, if_neg hk]
  refine ⟨fun k hk => (howned k).mpr hk, fun k hk => Or.inl ((howned k).mp hk), ?_⟩
  intro w t row ho hk hw
  have hne : row.wallet ≠ merged := by
    rintro he
    exact hother (he ▸ hw ▸ ho)
  exact ⟨row, by rw [folded_row, hk, Option.map_some, if_neg hne], hw, rfl⟩

/-- **A merge keeps every account but the one it folds.** -/
theorem mergeWallets_follows {fromUser intoUser : UserId} {counts : MergeCounts} (hne : fromUser ≠ user)
    (h : mergeWallets env digest fromUser intoUser db = .ok (counts, db')) : Db.Follows user db db' := by
  rcases mergeWallets_cases h with ⟨-, rfl, -⟩ | ⟨-, ⟨-, ⟨subscriptions, rfl⟩, -⟩ |
    ⟨merged, wallet, survivor, db₁, hmerged, hsurvivor, hlocked⟩⟩
  · exact .refl user _
  · exact .of_eq rfl rfl
  · obtain ⟨hget, huser⟩ := Table.find?_some hmerged
    obtain ⟨hopened, hget₁⟩ : Db.Follows user db db₁ ∧ db₁.wallets.get? merged = some wallet := by
      rcases survivorWallet_cases hsurvivor with ⟨rfl, -⟩ | ⟨-, -, hnew, rfl⟩
      · exact ⟨.refl user _, hget⟩
      · exact ⟨insert_follows rfl hnew, Table.get?_insert_of_some _ hget⟩
    obtain ⟨subscriptions, n, hsettle, -, -⟩ := mergeLocked_cases hlocked
    have hstripped : Db.Follows user db₁ (db₁.stripped env merged) :=
      .of_owners stripped_wallets.ownedBy fun t row hk => ⟨row, stripped_row hk, rfl, rfl⟩
    have howner : (db₁.stripped env merged).OwnedBy merged fromUser :=
      (stripped_wallets.ownedBy merged).mpr ⟨wallet, hget₁, huser⟩
    have hbooked : Db.Follows user ((db₁.stripped env merged).folded merged survivor)
        (db₁.booked env (mergeIdempotencyKey digest fromUser intoUser) merged survivor) :=
      .of_owners bookMerge_walletsSynced.ownedBy fun t row hk => ⟨row, bookMerge_row hk, rfl, rfl⟩
    have hsubs : Db.Follows user (db₁.booked env (mergeIdempotencyKey digest fromUser intoUser) merged
        survivor) { db₁.booked env (mergeIdempotencyKey digest fromUser intoUser) merged survivor with
          subscriptions } := .of_eq rfl rfl
    have hsettled : Db.Follows user _ db' :=
      (settleDebts_ok (P := fun _ => True) (fun _ _ _ _ => trivial) hsettle).follows
    exact ((((hopened.trans hstripped).trans (folded_follows howner hne)).trans hbooked).trans
      hsubs).trans hsettled

/-! ## Calls and runs -/

/-- Neither a merge that folds this user's account nor their erasure. -/
def SystemCall.Spares (user : UserId) : SystemCall → Prop
  | .userMerged fromUser _ => fromUser ≠ some user
  | .eraseSubject _ subject => subject ≠ some user
  | _ => True

/-- **Every call that spares an account keeps it.** -/
theorem SystemCall.exec_follows {c : SystemCall} {s : Deployment} (hfair : c.Fair terms)
    (hspares : c.Spares user) :
    Db.Follows user s.inbox.db (c.exec digest env s).inbox.db := by
  rcases @SystemCall.exec_cases terms env digest c s hfair with
    hbooks | ⟨source, target, counts, hc, hok⟩ | ⟨subjectType, subject, hc, hok⟩
  · exact hbooks.follows
  · rw [hc] at hspares
    exact mergeWallets_follows (fun he => hspares (congrArg some he)) hok
  · rw [hc] at hspares
    exact eraseSubject_follows hspares hok

/-- **A run that spares an account keeps it.** -/
theorem runSystem_follows {calls : List (Env × SystemCall)} {s : Deployment}
    (hfair : ∀ c ∈ calls, c.2.Fair terms) (hspares : ∀ c ∈ calls, c.2.Spares user) :
    Db.Follows user s.inbox.db (runSystem digest calls s).inbox.db := by
  refine run_relation (I := fun _ => True) (R := fun s s' : Deployment =>
    Db.Follows user s.inbox.db s'.inbox.db) (fun s => .refl user _)
    (fun _ _ _ h h' => h.trans h') (fun _ _ _ _ _ _ => trivial) ?_ trivial
  intro c hc s s' _ hok
  obtain rfl := Except.ok.inj hok
  exact SystemCall.exec_follows (hfair c hc) (hspares c hc)

/-! ## The grant under its key -/

/-- The user has one wallet, and in it a row with the key. -/
def Db.Granted (user : UserId) (key : String) (db : Db) : Prop :=
  ∃ w t row, db.OwnedBy w user ∧ (∀ k, db.OwnedBy k user → k = w) ∧ db.KeyedRow w key t row

/-- **What is granted stays granted** as long as the account is followed. -/
theorem Db.Follows.granted (h : Db.Follows user db db') (hg : db.Granted user key) :
    db'.Granted user key := by
  obtain ⟨w, t, row, howned, honly, hposted, hwallet, hkey⟩ := hg
  obtain ⟨row', hposted', hwallet', hkey'⟩ := h.rows w t row howned hposted hwallet
  refine ⟨w, t, row', h.kept w howned, fun k hk => ?_, hposted', hwallet', hkey'.trans hkey⟩
  rcases h.origin k hk with hold | hnone
  · exact honly k hold
  · exact absurd howned (hnone w)

/-- A user with a wallet of their own is locked by it. -/
theorem Db.Granted.locked (hg : db.Granted user key) (hkey : key ≠ "") :
    existingCall env (lockWallet user db).1 key db ≠ none ∧ (lockWallet user db).2 = db := by
  obtain ⟨w, t, row, howned, honly, hrow⟩ := hg
  rcases hlock : lockWallet user db with ⟨locked, db₁⟩
  rcases lockWallet_cases hlock with ⟨rfl, hwallet⟩ | ⟨-, -, hnew⟩
  · obtain rfl := honly locked hwallet
    exact ⟨fun hnone => existingCall_none hkey hnone t row hrow, rfl⟩
  · obtain ⟨wallet, hget, huser⟩ := howned
    exact absurd huser (hnew w wallet hget)

/-- A grant that says what, why and by whom. -/
structure GrantArgs.Signed (args : GrantArgs) : Prop where
  positive : 0 < args.credits
  explained : strip args.reason ≠ ""
  signed : strip args.actor ≠ ""

/-- The credit that a grant makes. -/
def GrantArgs.credit (args : GrantArgs) : CreditArgs :=
  manualCredit args (strip args.reason) (strip args.actor)

theorem grantCredits_signed {args : GrantArgs} (h : args.Signed) :
    grantCredits env args db = StapelBilling.credit env args.credit db := by
  unfold grantCredits
  dsimp only
  rw [if_neg (not_le.mpr h.positive), if_neg h.explained, if_neg h.signed]
  rfl

theorem grantCredits_ok {args : GrantArgs} {t : ℕ} (h : grantCredits env args db = .ok (t, db')) :
    args.Signed ∧ StapelBilling.credit env args.credit db = .ok (t, db') := by
  have hsigned : args.Signed := by
    unfold grantCredits at h
    dsimp only at h
    split at h
    · cases h
    · rename_i hpos
      split at h
      · cases h
      · rename_i hexplained
        split at h
        · cases h
        · rename_i hwho
          exact ⟨not_le.mp hpos, hexplained, hwho⟩
  exact ⟨hsigned, (grantCredits_signed hsigned).symm.trans h⟩

/-- A grant is a call of `credit`. -/
theorem grantCredits_exec {args : GrantArgs} {t : ℕ} (h : grantCredits env args db = .ok (t, db')) :
    (WalletCall.credit args.credit).exec env db = .ok db' := by
  show (StapelBilling.credit env args.credit db).map Prod.snd = .ok db'
  rw [(grantCredits_ok h).2]
  rfl

/-- The row that a grant answers with is there. -/
theorem grantCredits_row {args : GrantArgs} {t : ℕ} (hd : db.Mirrored)
    (h : grantCredits env args db = .ok (t, db')) : ∃ row, db'.transactions.get? t = some row := by
  have hcredit := (grantCredits_ok h).2
  have hd₁ : (lockWallet args.user db).2.Mirrored := lockWallet_mirrored hd
  obtain ⟨w, db₁, hlock, -, -, hcase⟩ := credit_cases hcredit
  have hlock : lockWallet args.user db = (w, db₁) := hlock
  rw [hlock] at hd₁
  rcases hcase with ⟨row, hfound, rfl⟩ | ⟨hnone, -, -⟩
  · exact ⟨row, (existingCall_some hd₁ hfound).2.posted⟩
  · have hrows : db₁.transactions = db.transactions := by
      rcases lockWallet_cases hlock with ⟨rfl, -⟩ | ⟨-, rfl, -⟩ <;> rfl
    rcases credit_adds hcredit with ⟨hfound, -⟩ | ⟨-, -, -, row, hrow, -⟩
    · refine absurd ?_ hfound
      have hw : (lockWallet args.credit.user db).1 = w := congrArg Prod.fst hlock
      rw [hw, ← existingCall_congr hrows]
      exact hnone
    · exact ⟨row, hrow⟩

/-- **A grant under a key leaves the user granted.** -/
theorem grantCredits_granted {args : GrantArgs} {t : ℕ} (hd : db.Mirrored) (hu : db.UsersUnique)
    (hkey : args.idempotencyKey ≠ "") (h : grantCredits env args db = .ok (t, db')) :
    db'.Granted args.user args.idempotencyKey := by
  have hkeyed : (WalletCall.credit args.credit).Keyed args.user args.idempotencyKey := ⟨rfl, rfl⟩
  have howned := exec_owned hkeyed (grantCredits_exec h)
  obtain ⟨t', row, hrow⟩ :=
    (credit_posts (grantCredits_ok h).2).keyedRow (lockWallet_mirrored hd) hkey
  refine ⟨_, t', row, howned, fun k hk => ?_, hrow⟩
  obtain ⟨wallet, hget, huser⟩ := hk
  obtain ⟨own, hown, huser'⟩ := howned
  exact credit_usersUnique hu (grantCredits_ok h).2 k _ wallet own args.user hget hown huser huser'

/-- **A grant that was made before writes nothing.** -/
theorem grantCredits_repeated {args : GrantArgs} {t : ℕ} (hkey : args.idempotencyKey ≠ "")
    (hg : db.Granted args.user args.idempotencyKey) (h : grantCredits env args db = .ok (t, db')) :
    db' = db := by
  have hcredit := (grantCredits_ok h).2
  obtain ⟨-, -, -, hpos, halive, -⟩ := credit_cases hcredit
  obtain ⟨hfound, hsame⟩ := @Db.Granted.locked env _ _ _ hg hkey
  obtain ⟨t', hanswer⟩ := @credit_answers env db args.credit hpos halive hfound
  rw [hcredit] at hanswer
  exact (congrArg Prod.snd (Except.ok.inj hanswer)).trans hsame

/-! ## The form -/

/-- A form with a token has a key for every wallet. -/
theorem GrantForm.key_ne {form : GrantForm} (htoken : form.token ≠ "") (w : ℕ) : form.key w ≠ "" := by
  unfold GrantForm.key
  rw [if_neg htoken]
  intro hempty
  have hlength := congrArg String.length hempty
  rw [String.length_append, String.length_append] at hlength
  have hcolon : ":".length = 1 := by decide
  have hnone : "".length = 0 := by decide
  omega

/-- **Every wallet that was ticked is granted**, by a form whose grants are signed. -/
theorem adminGrantEach_granted {form : GrantForm} {actor : String} (htoken : form.token ≠ "")
    (hsigned : ∀ user w, (form.args actor user w).Signed) (wallets : List (ℕ × Wallet))
    (hd : db.Mirrored) (hu : db.UsersUnique)
    (hread : ∀ r ∈ wallets, ∃ wallet, db.wallets.get? r.1 = some wallet) :
    ∀ r ∈ wallets, ∀ user ∈ r.2.user,
      (adminGrantEach env form actor wallets db).2.Granted user (form.key r.1) := by
  -- The wallets after the first are granted in a database that has the first one's grant.
  induction wallets generalizing db with
  | nil => exact fun r hr => absurd hr List.not_mem_nil
  | cons r wallets ih =>
    obtain ⟨w, wallet⟩ := r
    have hrest : ∀ r ∈ wallets, ∃ wallet, db.wallets.get? r.1 = some wallet :=
      fun r hr => hread r (List.mem_cons_of_mem _ hr)
    rcases howner : wallet.user with _ | owner
    · have hnext : (adminGrantEach env form actor ((w, wallet) :: wallets) db).2 =
          (adminGrantEach env form actor wallets db).2 := by
        simp only [adminGrantEach, howner]
      rw [hnext]
      intro r hr user huser
      rcases List.mem_cons.mp hr with rfl | hr
      · rw [howner] at huser
        cases huser
      · exact ih hd hu hrest r hr user huser
    · obtain ⟨t, granted, hok⟩ : ∃ t granted,
          grantCredits env (form.args actor owner w) db = .ok (t, granted) := by
        rw [grantCredits_signed (hsigned owner w)]
        refine credit_succeeds (hsigned owner w).positive ?_
        rintro ⟨_, hnone, -⟩
      have hgranted := grantCredits_granted hd hu (GrantForm.key_ne htoken w) hok
      have hcredit := (grantCredits_ok hok).2
      have hd' : granted.Mirrored := credit_mirrored rfl hd hcredit
      have hkept : ∀ k, (∃ wallet, db.wallets.get? k = some wallet) →
          ∃ wallet, granted.wallets.get? k = some wallet := by
        rintro k ⟨wallet, hk⟩
        obtain ⟨wallet', hk', -⟩ := (exec_moves (grantCredits_exec hok)).wallet_kept hk
        exact ⟨wallet', hk'⟩
      obtain ⟨refreshed, hrefreshed⟩ := hkept w (hread _ List.mem_cons_self)
      obtain ⟨row, hrow⟩ := grantCredits_row hd hok
      have hnext : (adminGrantEach env form actor ((w, wallet) :: wallets) db).2 =
          (adminGrantEach env form actor wallets granted).2 := by
        simp only [adminGrantEach, howner, hok, hrefreshed, hrow]
      rw [hnext]
      intro r hr user huser
      rcases List.mem_cons.mp hr with rfl | hr
      · rw [howner] at huser
        obtain rfl := Option.some.inj huser
        have hrun : Books {} env granted (adminGrantEach env form actor wallets granted).2 :=
          adminGrantEach_books form actor wallets
        exact hrun.follows.granted hgranted
      · exact ih hd' (credit_usersUnique hu hcredit) (fun r hr => hkept r.1 (hrest r hr)) r hr
          user huser

/-- A form whose grants write nothing writes nothing. -/
theorem adminGrantEach_idle {form : GrantForm} {actor : String} (wallets : List (ℕ × Wallet))
    (hidle : ∀ r ∈ wallets, ∀ user ∈ r.2.user, ∀ t db',
      grantCredits env (form.args actor user r.1) db = .ok (t, db') → db' = db) :
    (adminGrantEach env form actor wallets db).2 = db := by
  induction wallets with
  | nil => rfl
  | cons r wallets ih =>
    obtain ⟨w, wallet⟩ := r
    have hrest := ih fun r hr => hidle r (List.mem_cons_of_mem _ hr)
    have hfirst := hidle (w, wallet) List.mem_cons_self
    unfold adminGrantEach
    dsimp only
    split
    · exact hrest
    · rename_i user huser
      split
      · exact hrest
      · rfl
      · rename_i t granted hok
        obtain rfl := hfirst user huser t granted hok
        split
        · exact hrest
        · rfl

/-- A row of a wallet read twice, with the same owner. -/
def SameWallet (r r' : ℕ × Wallet) : Prop := r.1 = r'.1 ∧ r.2.user = r'.2.user

theorem SameWallet.read_before {selected again : List (ℕ × Wallet)} {r : ℕ × Wallet}
    (h : List.Forall₂ SameWallet selected again) (hr : r ∈ again) :
    ∃ first ∈ selected, SameWallet first r := by
  induction h with
  | nil => exact absurd hr List.not_mem_nil
  | cons hsame _ ih =>
    rcases List.mem_cons.mp hr with rfl | hr
    · exact ⟨_, List.mem_cons_self, hsame⟩
    · obtain ⟨first, hfirst, hread⟩ := ih hr
      exact ⟨first, List.mem_cons_of_mem _ hfirst, hread⟩

/-- **A form that is submitted again grants nothing.**  A form with a token was submitted for
wallets that were read from the database, where users have one wallet at most and no row's
metadata spells another retry key than its own.  Whatever comes to the deployment afterwards, as long
as no owner of these wallets is erased or folded into another account, the same form submitted
for the same wallets changes nothing, whenever it comes in. -/
theorem resubmitted_form_grants_nothing {s : Deployment} {form : GrantForm} {actor : String}
    {selected again : List (ℕ × Wallet)} {calls : List (Env × SystemCall)} (later : Env)
    (hmirrored : s.inbox.db.Mirrored) (hunique : s.inbox.db.UsersUnique) (htoken : form.token ≠ "")
    (hread : ∀ r ∈ selected, s.inbox.db.wallets.get? r.1 = some r.2)
    (hagain : List.Forall₂ SameWallet selected again) (hfair : ∀ c ∈ calls, c.2.Fair {})
    (hspares : ∀ r ∈ selected, ∀ user ∈ r.2.user, ∀ c ∈ calls, c.2.Spares user) :
    let granted := (SystemCall.adminGrant form actor selected).exec digest env s
    let after := (runSystem digest calls granted).inbox.db
    (adminGrantCredits later form actor again after).2 = after := by
  intro granted after
  have hlength : selected.length = again.length := hagain.length_eq
  -- A form that is refused the second time, as a whole or row by row, writes nothing.
  by_cases hrefused : form.credits ≤ 0 ∨ form.reason = "" ∨
      form.selectAcross ∈ [some "1", some "true", some "True"] ∨
      maxWalletsPerGrant < (again.take (maxWalletsPerGrant + 1)).length
  · unfold adminGrantCredits
    dsimp only
    split
    · rfl
    · split
      · rfl
      · split
        · rfl
        · split
          · rfl
          · rename_i h₁ h₂ h₃ h₄
            exact absurd hrefused (by simp only [h₁, h₂, h₃, h₄, or_self, not_false_iff])
  · rw [not_or, not_or, not_or] at hrefused
    obtain ⟨hpos, hreason, hacross, hmany⟩ := hrefused
    have hfew : selected.length ≤ maxWalletsPerGrant ∧ again.length ≤ maxWalletsPerGrant := by
      rw [List.length_take] at hmany
      omega
    have haccepted : ∀ (env : Env) (wallets : List (ℕ × Wallet)) (db : Db),
        wallets.length ≤ maxWalletsPerGrant →
        (adminGrantCredits env form actor wallets db).2 =
          (adminGrantEach env form actor wallets db).2 := by
      intro env wallets db hlen
      unfold adminGrantCredits
      rw [if_neg hpos, if_neg hreason, if_neg hacross]
      dsimp only
      rw [List.take_of_length_le (by omega), if_neg (by omega)]
    rw [haccepted later again after hfew.2]
    refine adminGrantEach_idle again fun r hr user huser t db' hok => ?_
    -- What was signed now was signed then, and the row is still there.
    have hsigned : ∀ user w, (form.args actor user w).Signed := by
      obtain ⟨⟨hp, he, hw⟩, -⟩ := grantCredits_ok hok
      exact fun _ _ => ⟨hp, he, hw⟩
    obtain ⟨first, hfirst, hsame, howner⟩ := SameWallet.read_before hagain hr
    have hthen : granted.inbox.db.Granted user (form.key first.1) := by
      show Db.Granted user _ (adminGrantCredits env form actor selected s.inbox.db).2
      rw [haccepted env selected _ hfew.1]
      exact adminGrantEach_granted htoken hsigned selected hmirrored hunique
        (fun r hr => ⟨r.2, hread r hr⟩) first hfirst user (howner ▸ huser)
    have hfollows : Db.Follows user granted.inbox.db after :=
      runSystem_follows hfair fun c hc => hspares first hfirst user (howner ▸ huser) c hc
    refine grantCredits_repeated (GrantForm.key_ne htoken r.1) ?_ hok
    have hnow : after.Granted user (form.key first.1) := hfollows.granted hthen
    rw [hsame] at hnow
    exact hnow

theorem resubmitted_form_grants_nothing_outage :
    let form : GrantForm :=
      { grantCredits := some "50"
        grantReason := some "outage on friday"
        grantToken := some "c0ffee" }
    let s := runSystem (fun _ _ => "pair") [(Env.plain 0, .viewWallet 1)]
      { inbox := { db := { users := [1, 2] } } }
    let granted := (SystemCall.adminGrant form "root" [(0, { user := some 1 })]).exec
      (fun _ _ => "pair") (Env.plain 0) s
    let after := (runSystem (fun _ _ => "pair")
      [(Env.plain 5, .billingDebit ⟨fun _ => false, fun _ => true⟩
          { user := 1
            credits := 50
            idempotencyKey := "job-1" }),
        (Env.plain 6, .userMerged (some 2) (some 1))] granted).inbox.db
    (adminGrantCredits (Env.plain 90) form "root"
      [(0, { user := some 1 })] after).2 = after := by
  intro form s granted after
  have hbare : Db.Bare { users := [1, 2] } := ⟨rfl, rfl, rfl, rfl, rfl⟩
  have hvisit : ∀ c ∈ [(Env.plain 0, SystemCall.viewWallet 1)], c.2.Fair { keyless := true } := by
    simp only [List.forall_mem_singleton]
    exact trivial
  have hplaced : s.inbox.db.KeysInPlace := runSystem_keysInPlace hbare hvisit
  have hunique : s.inbox.db.UsersUnique := (runSystem_custody hvisit).single hbare.filed.users
  refine resubmitted_form_grants_nothing (Env.plain 90) hplaced.mirrored hunique (by decide) ?_
    (.cons ⟨rfl, rfl⟩ .nil) ?_ ?_
  · simp only [List.forall_mem_singleton]
    rfl
  · simp only [List.forall_mem_cons, List.not_mem_nil, false_implies, implies_true, and_true]
    exact ⟨HostTerms.admits_empty, trivial⟩
  · simp only [List.forall_mem_cons, List.not_mem_nil, false_implies, implies_true, and_true]
    rintro user hown
    obtain rfl := Option.some.inj hown
    exact ⟨trivial, fun h => absurd (Option.some.inj h) (by decide)⟩

end StapelBilling
