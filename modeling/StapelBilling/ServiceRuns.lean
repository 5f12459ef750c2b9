import StapelBilling.Rehoming

/-! # Runs of the service

A merge strips a wallet, folds it and books the arrival: each part keeps the database
regular, and rows at home.  Every other call keeps it regular, and a run of the service from a
database without wallets meets regular databases only.
-/
namespace StapelBilling
open Store

variable {env : Env} {w merged survivor : ℕ} {db db' : Db}

/-! ## The parts of a merge -/

theorem WalletsSynced.hasWallet (h : WalletsSynced db.wallets db'.wallets) {k : ℕ}
    (hk : db.HasWallet k) : db'.HasWallet k := by
  obtain ⟨wallet, hget⟩ := hk
  obtain ⟨wallet', hget', -⟩ := h.grows.kept k wallet hget
  exact ⟨wallet', hget'⟩

theorem WalletsSynced.isOpen (h : WalletsSynced db.wallets db'.wallets) {k : ℕ}
    (ho : db.IsOpen k) : db'.IsOpen k := by
  intro wallet' hk
  rcases h.grows.origin k wallet' hk with ⟨wallet, hold, hsame⟩ | ⟨-, hnew⟩
  · exact hsame.mergedInto.trans (ho wallet hold)
  · exact hnew.elim

/-- Growth on one open wallet keeps the database regular. -/
theorem Db.Regular.grows (hs : db.Regular) (hg : db.Grows w db')
    (hwallets : WalletsSynced db.wallets db'.wallets) (hbeside : db.Beside w db')
    (hn : db'.LotsNonneg) (hw : db.HasWallet w) (ho : db.IsOpen w) : db'.Regular where
  referenced := hs.referenced.grows hg (fun _ hk => hwallets.hasWallet hk) (hwallets.hasWallet hw)
  nonneg := hn
  closed := hs.closed.grows hg hbeside.wallets (hwallets.isOpen ho)

/-- Growth without new lots or other holds keeps rows at home. -/
theorem Db.Home.sameHolds (hh : db.Home) (hg : db.Grows w db')
    (hnext : db'.lots.next = db.lots.next) (hholds : db'.holds = db.holds) : db'.Home := by
  refine hh.grows hg (no_new_lots hnext) ?_
  rw [hholds]
  exact hh.allocations

/-- No invariant reads the subscriptions. -/
theorem Db.Regular.withSubscriptions (hs : db.Regular) (subscriptions : Table Subscription) :
    Db.Regular { db with subscriptions } := by
  have hrehomes : db.Rehomes id { db with subscriptions } := Db.Rehomes.of_eq rfl rfl rfl rfl
  exact hrehomes.regular hs (fun k wallet hk => ⟨wallet, hk, rfl, rfl, id⟩) fun _ hk => hk

theorem Db.Home.withSubscriptions (hh : db.Home) (subscriptions : Table Subscription) :
    Db.Home { db with subscriptions } := ⟨hh.grants, hh.allocations⟩

/-- Moves on one open wallet keep the database regular. -/
theorem Moves.regular {P : Move → Prop} (h : Moves env w P db db') (hs : db.Regular)
    (hw : db.HasWallet w) (ho : db.IsOpen w) : db'.Regular :=
  ⟨h.referenced hw hs.referenced, h.lotsNonneg hs.nonneg, h.closedEmpty ho hs.closed⟩

theorem stripped_row {k : ℕ} {row : Transaction} (hk : db.transactions.get? k = some row) :
    (db.stripped env merged).transactions.get? k = some row := by
  refine forfeited_invariant (I := fun db' => db'.transactions.get? k = some row) ?_
    (fun _ hI => hI) (expireDueLots_row hk)
  intro j lot row' db₁ db₂ he hI
  rw [he.result]
  exact Table.get?_insert_of_some _ hI

theorem stripped_lots_next : (db.stripped env merged).lots.next = db.lots.next := by
  refine forfeited_invariant (I := fun db' => db'.lots.next = db.lots.next) ?_
    (fun _ hI => hI) (expireDueLots_lots_next db)
  intro j lot row' db₁ db₂ he hI
  rw [he.result]
  exact hI

theorem stripped_regular (hs : db.Regular) (hm : db.HasWallet merged) (ho : db.IsOpen merged) :
    (db.stripped env merged).Regular :=
  hs.grows stripped_grows stripped_wallets stripped_beside (nonneg_lotProperty.stripped hs.nonneg)
    hm ho

section Booking
variable {key : String} {credits : ℤ}

theorem bookMerge_row {k : ℕ} {row : Transaction} (hk : db.transactions.get? k = some row) :
    (bookMerge env key merged survivor credits db).transactions.get? k = some row :=
  Table.get?_insert_of_some _ (expireDueLots_row hk)

theorem bookMerge_regular (hs : db.Regular) (hsurvivor : db.HasWallet survivor)
    (ho : db.IsOpen survivor) : (bookMerge env key merged survivor credits db).Regular := by
  refine hs.grows bookMerge_grows bookMerge_walletsSynced bookMerge_beside ?_ hsurvivor ho
  exact nonneg_lotProperty.swept hs.nonneg

theorem bookMerge_home (hh : db.Home) : (bookMerge env key merged survivor credits db).Home :=
  hh.sameHolds bookMerge_grows (expireDueLots_lots_next db) bookMerge_frame.1

end Booking

/-- The survivor of a merge is an open wallet. -/
theorem survivorWallet_regular {intoUser : UserId} {currency : String}
    (h : survivorWallet intoUser currency db = .ok (survivor, db')) (hregular : db.Regular) :
    db'.Regular ∧ db'.HasWallet survivor ∧ db'.IsOpen survivor := by
  rcases survivorWallet_cases h with ⟨rfl, wallet, hget, huser⟩ | ⟨rfl, -, -, rfl⟩
  · exact ⟨hregular, ⟨wallet, hget⟩, hregular.closed.isOpen_of_user hget huser⟩
  · have hkept : ∀ k, db.HasWallet k → Db.HasWallet { db with
        wallets := db.wallets.insert { user := some intoUser, currency } } k :=
      fun k hk => hk.imp fun _ => Table.get?_insert_of_some _
    have hrehomes : db.Rehomes id { db with
        wallets := db.wallets.insert { user := some intoUser, currency } } :=
      Db.Rehomes.of_eq rfl rfl rfl rfl
    have hnew : Db.IsOpen db.wallets.next { db with
        wallets := db.wallets.insert { user := some intoUser, currency } } := by
      intro wallet hk
      obtain rfl := Option.some.inj ((Table.get?_insert_next _ _).symm.trans hk)
      rfl
    refine ⟨⟨hrehomes.referenced hregular.referenced hkept, hregular.nonneg, ?_⟩,
      ⟨_, Table.get?_insert_next _ _⟩, hnew⟩
    intro k wallet hk hclosed
    by_cases hkn : k = db.wallets.next
    · rw [hkn] at hk
      exact absurd (hnew wallet hk) hclosed
    · have hold : db.wallets.get? k = some wallet := (Table.get?_insert_of_ne _ hkn).symm.trans hk
      obtain ⟨huser, hbalance, hrows⟩ := hregular.closed k wallet hold hclosed
      exact ⟨huser, hbalance, hrows.lots, hrows.transactions, hrows.holds, hrows.debts⟩

theorem survivorWallet_home {intoUser : UserId} {currency : String}
    (h : survivorWallet intoUser currency db = .ok (survivor, db')) (hh : db.Home) : db'.Home := by
  rcases survivorWallet_cases h with ⟨rfl, -⟩ | ⟨-, -, -, rfl⟩
  · exact hh
  · exact ⟨hh.grants, hh.allocations⟩

/-- **A merge under both locks keeps the database regular.** -/
theorem mergeLocked_regular {key : String} {fromUser intoUser : UserId} {counts : MergeCounts}
    (hregular : db.Regular) (hne : merged ≠ survivor) (hm : db.HasWallet merged)
    (hmo : db.IsOpen merged) (hs : db.HasWallet survivor) (hso : db.IsOpen survivor)
    (h : mergeLocked env key fromUser intoUser merged survivor db = .ok (counts, db')) :
    db'.Regular := by
  obtain ⟨subscriptions, n, hsettle, -, -⟩ := mergeLocked_cases h
  have hstripped : (db.stripped env merged).Regular := stripped_regular hregular hm hmo
  have hsync : WalletsSynced db.wallets (db.stripped env merged).wallets := stripped_wallets
  have hs' := hsync.hasWallet hs
  have hso' := hsync.isOpen hso
  have hfolded := folded_regular hne hs' hso' hstripped
  -- The fold does not touch the survivor's own row.
  have hsurvivor : ((db.stripped env merged).folded merged survivor).wallets.get? survivor =
      (db.stripped env merged).wallets.get? survivor := by
    rw [folded_wallet, if_neg hne.symm]
  have hfs : ((db.stripped env merged).folded merged survivor).HasWallet survivor := by
    unfold Db.HasWallet
    rw [hsurvivor]
    exact hs'
  have hfo : ((db.stripped env merged).folded merged survivor).IsOpen survivor := by
    unfold Db.IsOpen
    rw [hsurvivor]
    exact hso'
  have hbooked : (db.booked env key merged survivor).Regular := bookMerge_regular hfolded hfs hfo
  have hbsync : WalletsSynced ((db.stripped env merged).folded merged survivor).wallets
      (db.booked env key merged survivor).wallets := bookMerge_walletsSynced
  have hsubs : Db.Regular { db.booked env key merged survivor with subscriptions } :=
    hbooked.withSubscriptions subscriptions
  have hmoves := settleDebts_ok (P := Move.IsSettling) (fun _ _ _ _ => trivial) hsettle
  exact hmoves.regular hsubs (hbsync.hasWallet hfs) (hbsync.isOpen hfo)

/-- Under both locks, rows move together. -/
theorem mergeLocked_home {key : String} {fromUser intoUser : UserId} {counts : MergeCounts}
    (hh : db.Home)
    (h : mergeLocked env key fromUser intoUser merged survivor db = .ok (counts, db')) :
    db'.Home := by
  obtain ⟨subscriptions, n, hsettle, -, -⟩ := mergeLocked_cases h
  have hstripped : (db.stripped env merged).Home :=
    hh.sameHolds stripped_grows stripped_lots_next stripped_frame.1
  have hbooked : (db.booked env key merged survivor).Home :=
    bookMerge_home (folded_rehomes.home hstripped)
  exact settleDebts_home hsettle (hbooked.withSubscriptions subscriptions)

/-- **A merge keeps the database regular.** -/
theorem mergeWallets_regular {digest : UserId → UserId → String} {fromUser intoUser : UserId}
    {counts : MergeCounts} (hregular : db.Regular) (hne : fromUser ≠ intoUser)
    (h : mergeWallets env digest fromUser intoUser db = .ok (counts, db')) : db'.Regular := by
  rcases mergeWallets_cases h with ⟨-, rfl, -⟩ | ⟨-, ⟨-, ⟨subscriptions, rfl⟩, -⟩ |
    ⟨merged, wallet, survivor, db₁, hmerged, hsurvivor, hlocked⟩⟩
  · exact hregular
  · exact hregular.withSubscriptions subscriptions
  · have hmne := merged_ne_survivor hne hmerged hsurvivor
    obtain ⟨hget, huser⟩ := Table.find?_some hmerged
    obtain ⟨hregular₁, hs, hso⟩ := survivorWallet_regular hsurvivor hregular
    have hmerged₁ : db₁.wallets.get? merged = some wallet := by
      rcases survivorWallet_cases hsurvivor with ⟨rfl, -⟩ | ⟨-, -, -, rfl⟩
      · exact hget
      · exact Table.get?_insert_of_some _ hget
    exact mergeLocked_regular hregular₁ hmne ⟨wallet, hmerged₁⟩
      (hregular₁.closed.isOpen_of_user hmerged₁ huser) hs hso hlocked

/-- **A merge keeps the database well formed.** -/
theorem mergeWallets_wellformed {digest : UserId → UserId → String} {fromUser intoUser : UserId}
    {counts : MergeCounts} (hwf : db.Wellformed) (hne : fromUser ≠ intoUser)
    (h : mergeWallets env digest fromUser intoUser db = .ok (counts, db')) : db'.Wellformed := by
  refine ⟨mergeWallets_regular hwf.toRegular hne h, ?_⟩
  rcases mergeWallets_cases h with ⟨-, rfl, -⟩ | ⟨-, ⟨-, ⟨subscriptions, rfl⟩, -⟩ |
    ⟨merged, wallet, survivor, db₁, -, hsurvivor, hlocked⟩⟩
  · exact hwf.home
  · exact hwf.home.withSubscriptions subscriptions
  · exact mergeLocked_home (survivorWallet_home hsurvivor hwf.home) hlocked

theorem handleUserMerged_cases {digest : UserId → UserId → String}
    {fromUser intoUser : Option UserId}
    (h : handleUserMerged env digest fromUser intoUser db = .ok db') :
    db' = db ∨ ∃ source target counts, fromUser = some source ∧ intoUser = some target ∧
      source ≠ target ∧ mergeWallets env digest source target db = .ok (counts, db') := by
  unfold handleUserMerged at h
  split at h
  · rename_i source target
    split at h
    · exact Or.inl (Except.ok.inj h).symm
    · rename_i hne
      split at h
      · cases h
      · rename_i counts db₁ hmerge
        obtain rfl := Except.ok.inj h
        exact Or.inr ⟨source, target, counts, rfl, rfl, hne, hmerge⟩
  · exact Or.inl (Except.ok.inj h).symm

/-! ## Runs -/

/-- **A call of the service** is a wallet operation, a merge, the dating of a bundle, or an
erasure. -/
theorem ServiceCall.exec_cases {digest : UserId → UserId → String} {c : ServiceCall}
    (h : c.exec digest env db = .ok db') :
    (∃ call, c = .wallet call ∧ call.exec env db = .ok db') ∨
    (∃ fromUser intoUser, c = .userMerged fromUser intoUser ∧
      handleUserMerged env digest fromUser intoUser db = .ok db') ∨
    (∃ sub, db' = StapelBilling.stampSubscriptionPeriod sub db) ∨
    ∃ subjectType subject, db' = (StapelBilling.eraseSubject subjectType subject db).getD db := by
  cases c with
  | wallet call => exact Or.inl ⟨call, rfl, h⟩
  | userMerged fromUser intoUser => exact Or.inr (Or.inl ⟨fromUser, intoUser, rfl, h⟩)
  | stampSubscriptionPeriod sub =>
    exact Or.inr (Or.inr (Or.inl ⟨sub, (Except.ok.inj h).symm⟩))
  | eraseSubject subjectType subject =>
    exact Or.inr (Or.inr (Or.inr ⟨subjectType, subject, (Except.ok.inj h).symm⟩))

/-- **What a call keeps** is what operations, merges, dated bundles and erasures keep. -/
theorem ServiceCall.exec_invariant {digest : UserId → UserId → String} {c : ServiceCall} {I : Db → Prop}
    (hcall : ∀ call db', c = .wallet call → call.exec env db = .ok db' → I db')
    (hmerge : ∀ source target counts db', source ≠ target →
      mergeWallets env digest source target db = .ok (counts, db') → I db')
    (hstamp : ∀ sub, I (StapelBilling.stampSubscriptionPeriod sub db))
    (herase : ∀ subjectType subject db', StapelBilling.eraseSubject subjectType subject db = some db' →
      I db')
    (hI : I db) (h : c.exec digest env db = .ok db') : I db' := by
  rcases ServiceCall.exec_cases h with ⟨call, rfl, hok⟩ | ⟨fromUser, intoUser, -, hok⟩ | ⟨sub, rfl⟩ |
    ⟨subjectType, subject, rfl⟩
  · exact hcall call db' rfl hok
  · rcases handleUserMerged_cases hok with rfl | ⟨source, target, counts, -, -, hne, hok⟩
    · exact hI
    · exact hmerge source target counts db' hne hok
  · exact hstamp sub
  · cases hok : StapelBilling.eraseSubject subjectType subject db with
    | none => exact hI
    | some db' => exact herase subjectType subject db' hok

/-- **A call of the service keeps the database regular.** -/
theorem ServiceCall.exec_regular {digest : UserId → UserId → String} {c : ServiceCall}
    (hs : db.Regular) (h : c.exec digest env db = .ok db') : db'.Regular :=
  ServiceCall.exec_invariant (fun _ _ _ hok => StapelBilling.exec_regular hs hok)
    (fun _ _ _ _ hne hok => mergeWallets_regular hs hne hok)
    (fun sub => stampSubscriptionPeriod_regular sub hs) (fun _ _ _ hok => eraseSubject_regular hok hs)
    hs h

/-- **A run of the service meets regular databases only.** -/
theorem runService_regular {digest : UserId → UserId → String} {calls : List (Env × ServiceCall)}
    (hs : db.Regular) : (runService digest calls db).Regular :=
  run_invariant (fun _ _ _ _ hI h => ServiceCall.exec_regular hI h) hs

end StapelBilling
