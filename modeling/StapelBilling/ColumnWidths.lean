import StapelBilling.CarryTime
import StapelBilling.CompRace
import StapelBilling.CumulativeRefunds
import StapelBilling.Merging

/-! # Texts and the columns they go into

Three operations store texts they put together themselves: a merge renames a hold whose key
the survivor uses, a money-back event says what it claws back, a comp bundle says what it is
the difference of.  The columns are 255 characters wide, and nothing is cut.

* `Db.FitsColumns` is what a database that enforces its widths can hold;
* `MergeRoom`, `ClawbackRoom` and `ExtendRoom` say what each operation needs of its input and
  of the rows it finds;
* `derived_texts_fit_iff` says that a run stores only texts that fit exactly when every call
  that is served has that room.
-/
namespace StapelBilling
open Store

variable {env : Env} {w : ℕ} {db db' : Db}

/-! ## Columns -/

/-- A text that a column of 255 characters takes. -/
def FitsText (text : Option String) : Prop := ∀ s ∈ text, s.length ≤ 255

/-- The ledger, the debts and the comp windows keep to their columns. -/
structure Db.FitsBooks (db : Db) : Prop where
  rows : db.transactions.Every fun row => FitsText row.description
  debts : db.debts.Every fun debt => FitsText debt.description
  comps : db.compPeriods.Every fun comp => comp.reason.length ≤ 255 ∧ comp.plan.length ≤ 16

/-- A hold keeps to its columns. -/
def CreditHold.Fits (held : CreditHold) : Prop :=
  held.idempotencyKey.length ≤ 255 ∧ FitsText held.description

/-- **Every text is as wide as its column at most.** -/
structure Db.FitsColumns (db : Db) : Prop where
  books : db.FitsBooks
  holds : db.holds.Every CreditHold.Fits

theorem fitsText_some {s : String} : FitsText (some s) ↔ s.length ≤ 255 := by
  refine ⟨fun h => h s rfl, fun h t ht => ?_⟩
  cases ht
  exact h

theorem fitsText_orText {text : Option String} {fallback : String} (h : FitsText text)
    (hfallback : fallback.length ≤ 255) : FitsText (orText text (some fallback)) := by
  unfold orText
  split
  · split
    · exact fitsText_some.mpr hfallback
    · exact h
  · exact fitsText_some.mpr hfallback

/-- A row joins the ledger. -/
theorem Db.FitsBooks.insertRow (hf : db.FitsBooks) {row : Transaction}
    (hrow : FitsText row.description) (hrows : db'.transactions = db.transactions.insert row)
    (hdebts : db'.debts = db.debts) (hcomps : db'.compPeriods = db.compPeriods) : db'.FitsBooks := by
  refine ⟨?_, hdebts ▸ hf.debts, hcomps ▸ hf.comps⟩
  rw [hrows]
  exact Table.every_insert_iff.mpr ⟨hrow, hf.rows⟩

/-! ## Moves that write texts of fixed size -/

theorem length_expired (source : LotSource) :
    (s!"Credits expired ({source.display})").length ≤ 255 := by
  cases source <;> decide

theorem length_settlement (reason : DebtReason) :
    (s!"Debt settlement ({reason.value})").length ≤ 255 := by
  cases reason <;> decide

/-- The moves whose texts do not grow with what they find. -/
def Move.Plain : Move → Prop
  | .openWallet _ | .sync | .expire _ | .collect _ _ _ _ => True
  | .grant args => FitsText args.description
  | _ => False

/-- **A sweep, a collection and a grant store texts that fit.** -/
theorem Step.fitsBooks {m : Move} (h : Step env w m db db') (hm : m.Plain) (hf : db.FitsBooks) :
    db'.FitsBooks := by
  cases h with
  | openWallet _ _ | sync => exact ⟨hf.rows, hf.debts, hf.comps⟩
  | expire _ _ _ => exact hf.insertRow (fitsText_some.mpr (length_expired _)) rfl rfl rfl
  | @grant _ args _ _ =>
    have hrow : FitsText args.description := hm
    exact ⟨Table.every_insert_iff.mpr ⟨hrow, hf.rows⟩, hf.debts, hf.comps⟩
  | @collect _ k debt amount taken hdebt _ _ _ _ _ _ =>
    -- A debt's own text is what its collection carries, and it stays on the debt.
    have hrow := fitsText_orText (hf.debts k debt hdebt) (length_settlement debt.reason)
    exact ⟨Table.every_insert_iff.mpr ⟨hrow, hf.rows⟩, hf.debts.modify fun _ h => h, hf.comps⟩
  | _ => exact hm.elim

theorem Moves.fitsBooks {P : Move → Prop} (hP : ∀ m, P m → m.Plain) (h : Moves env w P db db')
    (hf : db.FitsBooks) : db'.FitsBooks :=
  Moves.invariant (I := Db.FitsBooks) (fun m _ _ hm hI hs => hs.fitsBooks (hP m hm) hI) h hf

variable (env w) in
theorem swept_fitsBooks (hf : db.FitsBooks) : (db.swept env w).FitsBooks :=
  Moves.fitsBooks (P := Move.Plain) (fun _ hm => hm)
    (expireDueLots_moves env w trivial (fun _ => trivial) db) hf

/-- Collecting debts touches no hold, and its rows fit. -/
theorem settleDebts_fits {n : ℤ} (h : settleDebts env w db = .ok (n, db')) :
    db'.holds = db.holds ∧ (db.FitsBooks → db'.FitsBooks) := by
  refine ⟨?_, Moves.fitsBooks (P := Move.IsSettling) ?_ (settleDebts_ok (fun _ _ _ _ => trivial) h)⟩
  · refine Moves.invariant (I := fun d => d.holds = db.holds) ?_
      (settleDebts_ok (P := Move.IsSettling) (fun _ _ _ _ => trivial) h) rfl
    rintro m db₁ db₂ hm hI hs
    cases hs with
    | sync | expire _ _ _ | collect _ _ _ _ _ _ _ => exact hI
    | _ => exact hm.elim
  · rintro m hm
    cases m <;> first | exact trivial | exact hm.elim

/-! ## Merges -/

section Merge
variable {merged survivor : ℕ}

theorem length_hexDigits (n k : ℕ) : (hexDigits n k).length = n := by
  induction n generalizing k with
  | zero => rfl
  | succ n ih => rw [hexDigits, List.length_append, ih, List.length_singleton]

theorem length_uuidGroups {digits : List Char} (h : digits.length = 32) :
    (uuidGroups digits).length = 36 := by
  simp [uuidGroups, h]

/-- **A renamed key is longer by 44 characters.** -/
theorem length_renamedKey (key : String) : (renamedKey merged key).length = key.length + 44 := by
  have hmark : ":merged:".length = 8 := by decide
  have huuid : (uuidText merged).length = 36 := by
    rw [uuidText, String.length_ofList, length_uuidGroups (length_hexDigits 32 merged)]
  rw [renamedKey, String.length_append, String.length_append, hmark, huuid]

/-- A hold of the merged wallet whose key the survivor uses. -/
def Db.Clashes (db : Db) (merged survivor : ℕ) (held : CreditHold) : Prop :=
  held.wallet = merged ∧ ∃ j other, db.holds.get? j = some other ∧ other.wallet = survivor ∧
    other.idempotencyKey = held.idempotencyKey

theorem clashes_iff {held : CreditHold} : db.Clashes merged survivor held ↔
    held.wallet = merged ∧ held.idempotencyKey ∈
      (db.holds.select fun held => held.wallet = survivor).map fun r => r.2.idempotencyKey := by
  refine and_congr_right fun _ => ?_
  rw [List.mem_map]
  constructor
  · rintro ⟨j, other, hget, hw, hkey⟩
    exact ⟨(j, other), Table.mem_select.mpr ⟨hget, hw⟩, hkey⟩
  · rintro ⟨⟨j, other⟩, hmem, hkey⟩
    obtain ⟨hget, hw⟩ := Table.mem_select.mp hmem
    exact ⟨j, other, hget, hw, hkey⟩

/-- **Renaming fits exactly when the clashing keys leave room for it.** -/
theorem renameClashes_fits_iff (hf : db.holds.Every CreditHold.Fits) :
    (renameClashes merged survivor db).holds.Every CreditHold.Fits ↔
      ∀ h held, db.holds.get? h = some held → db.Clashes merged survivor held →
        held.idempotencyKey.length ≤ 211 := by
  unfold renameClashes
  dsimp only
  rw [Table.every_update_iff]
  refine forall_congr' fun h => forall_congr' fun held => forall_congr' fun hget => ?_
  rw [clashes_iff]
  split
  · rename_i hclash
    have hlength := @length_renamedKey merged held.idempotencyKey
    constructor
    · intro hfits _
      have hkey : (renamedKey merged held.idempotencyKey).length ≤ 255 := hfits.1
      omega
    · intro hshort
      have hkey := hshort hclash
      exact ⟨show (renamedKey merged held.idempotencyKey).length ≤ 255 by omega,
        (hf h held hget).2⟩
  · rename_i hclash
    exact ⟨fun _ hc => absurd hc hclash, fun _ => hf h held hget⟩

/-- The fold moves texts, it does not change them. -/
theorem folded_fits_iff (hf : db.FitsColumns) :
    (db.folded merged survivor).FitsBooks ∧
      ((db.folded merged survivor).holds.Every CreditHold.Fits ↔
        ∀ h held, db.holds.get? h = some held → db.Clashes merged survivor held →
          held.idempotencyKey.length ≤ 211) := by
  refine ⟨⟨?_, ?_, hf.books.comps⟩, ?_⟩
  · refine Table.every_update_iff.mpr fun k row hk => ?_
    split <;> exact hf.books.rows k row hk
  · refine Table.every_update_iff.mpr fun k debt hk => ?_
    split <;> exact hf.books.debts k debt hk
  · rw [← renameClashes_fits_iff hf.holds]
    refine Table.every_update_iff.trans ⟨fun h j held hj => ?_, fun h j held hj => ?_⟩
    · have hmoved := h j held hj
      split at hmoved <;> exact hmoved
    · have hrenamed := h j held hj
      split <;> exact hrenamed

theorem forfeitLots_fitsBooks {lots : List (ℕ × CreditLot)} {running : ℤ} (hf : db.FitsBooks) :
    (forfeitLots env w lots running db).FitsBooks := by
  induction lots generalizing db running with
  | nil => exact hf
  | cons r lots ih => exact ih (hf.insertRow (fitsText_some.mpr (by decide)) rfl rfl rfl)

variable (env merged) in
theorem stripped_fits (hf : db.FitsColumns) : (db.stripped env merged).FitsColumns := by
  have hswept := swept_fitsBooks env merged hf.books
  refine ⟨?_, ?_⟩
  · unfold Db.stripped
    rcases forfeited_cases env merged (db.swept env merged) with ⟨he, -⟩ | he
    · rw [he]
      exact hswept
    · rw [he]
      have hforfeited : (forfeitLots env merged ((db.swept env merged).forfeitedLots
          env.settings.mergeForfeitLotSources merged) ((db.swept env merged).liveBalance merged
          env.now) (db.swept env merged)).FitsBooks := forfeitLots_fitsBooks hswept
      exact ⟨hforfeited.rows, hforfeited.debts, hforfeited.comps⟩
  · rw [stripped_frame.1]
    exact hf.holds

/-- What a merge needs: unless it was applied before, every arriving hold whose key the
survivor uses has a key of 211 characters at most. -/
def MergeRoom (digest : UserId → UserId → String) (fromUser intoUser : UserId) (db : Db) : Prop :=
  (∀ k row, db.transactions.get? k = some row →
    row.idempotencyKey ≠ mergeIdempotencyKey digest fromUser intoUser) →
  ∀ merged wallet survivor db₁,
    db.wallets.find? (fun wallet => wallet.user = some fromUser) = some (merged, wallet) →
    survivorWallet intoUser wallet.currency db = .ok (survivor, db₁) →
    ∀ h held, db.holds.get? h = some held → db.Clashes merged survivor held →
      held.idempotencyKey.length ≤ 211

/-- **Under both locks**, only the renamed keys can outgrow their column. -/
theorem mergeLocked_fits_iff {key : String} {fromUser intoUser : UserId} {counts : MergeCounts}
    (hf : db.FitsColumns)
    (h : mergeLocked env key fromUser intoUser merged survivor db = .ok (counts, db')) :
    db'.FitsColumns ↔ ∀ h held, db.holds.get? h = some held → db.Clashes merged survivor held →
      held.idempotencyKey.length ≤ 211 := by
  obtain ⟨subscriptions, n, hsettle, -, -⟩ := mergeLocked_cases h
  obtain ⟨hholds, hbooks⟩ := settleDebts_fits hsettle
  have hstripped := stripped_fits env merged hf
  obtain ⟨hfolded, hiff⟩ := @folded_fits_iff _ merged survivor hstripped
  have hbooked : (db.booked env key merged survivor).FitsBooks :=
    (swept_fitsBooks env survivor hfolded).insertRow (fitsText_some.mpr (by decide)) rfl rfl rfl
  have hsame : (db.booked env key merged survivor).holds =
      ((db.stripped env merged).folded merged survivor).holds := bookMerge_frame.1
  have hclash : ∀ held, (db.stripped env merged).Clashes merged survivor held ↔
      db.Clashes merged survivor held := by
    intro held
    unfold Db.Clashes
    rw [stripped_frame.1]
  rw [stripped_frame.1] at hiff
  simp only [hclash] at hiff
  rw [← hiff, ← hsame, ← hholds]
  exact ⟨fun hfits => hfits.holds,
    fun hfits => ⟨hbooks ⟨hbooked.rows, hbooked.debts, hbooked.comps⟩, hfits⟩⟩

/-- **A merge's texts fit exactly when the clashing keys leave room.** -/
theorem mergeWallets_fits_iff {digest : UserId → UserId → String} {fromUser intoUser : UserId}
    {counts : MergeCounts} (hf : db.FitsColumns)
    (h : mergeWallets env digest fromUser intoUser db = .ok (counts, db')) :
    db'.FitsColumns ↔ MergeRoom digest fromUser intoUser db := by
  rcases mergeWallets_cases h with ⟨⟨k, row, hk, hkey⟩, rfl, -⟩ | ⟨hfresh,
    ⟨hnone, ⟨subscriptions, rfl⟩, -⟩ | ⟨merged, wallet, survivor, db₁, hfind, hsurvivor, hlocked⟩⟩
  · exact ⟨fun _ hfresh => absurd hkey (hfresh k row hk), fun _ => hf⟩
  · refine ⟨fun _ _ merged wallet _ _ hfind => ?_,
      fun _ => ⟨⟨hf.books.rows, hf.books.debts, hf.books.comps⟩, hf.holds⟩⟩
    obtain ⟨hget, huser⟩ := Table.find?_some hfind
    exact absurd huser (hnone merged wallet hget)
  · have hopened : db₁.FitsColumns ∧ db₁.holds = db.holds := by
      rcases survivorWallet_cases hsurvivor with ⟨rfl, -⟩ | ⟨-, -, -, rfl⟩
      · exact ⟨hf, rfl⟩
      · exact ⟨⟨⟨hf.books.rows, hf.books.debts, hf.books.comps⟩, hf.holds⟩, rfl⟩
    have hclash : ∀ held, db₁.Clashes merged survivor held ↔ db.Clashes merged survivor held := by
      intro held
      unfold Db.Clashes
      rw [hopened.2]
    rw [mergeLocked_fits_iff hopened.1 hlocked, hopened.2]
    simp only [hclash]
    constructor
    · intro hshort _ m wallet' v db₂ hfind' hsurvivor'
      obtain ⟨rfl, rfl⟩ := Prod.mk.inj (Option.some.inj (hfind.symm.trans hfind'))
      obtain ⟨rfl, rfl⟩ := Prod.mk.inj (Except.ok.inj (hsurvivor.symm.trans hsurvivor'))
      exact hshort
    · exact fun hroom => hroom hfresh merged wallet survivor db₁ hfind hsurvivor

end Merge

/-! ## Clawbacks -/

section Clawback
variable {obj : ChargeObject} {label : String} {eventId : Option String}

/-- What a clawback calls the grant it takes back. -/
def Transaction.called (txn : Transaction) : String :=
  (orText txn.description (some txn.type.value)).getD ""

/-- A clawback's text fits. -/
def CallsGrant (label : String) (txn : Transaction) : Prop :=
  label.length + 2 + txn.called.length ≤ 255

theorem callsGrant_iff {txn : Transaction} :
    CallsGrant label txn ↔ (label ++ ": " ++ txn.called).length ≤ 255 := by
  have hcolon : ": ".length = 2 := by decide
  rw [String.length_append, String.length_append, hcolon]
  exact Iff.rfl

/-- What the other grants' clawbacks asked for is what it was. -/
theorem alreadyClawedBack_insert {grant : ℕ} {row : Transaction} (hrow : ¬ NamesGrant grant row)
    (hrows : db'.transactions = db.transactions.insert row) :
    alreadyClawedBack grant db' = alreadyClawedBack grant db := by
  unfold alreadyClawedBack
  rw [hrows, Table.sum_insert, if_neg hrow, add_zero]

theorem alreadyClawedBack_swept (grant : ℕ) :
    alreadyClawedBack grant (db.swept env w) = alreadyClawedBack grant db := by
  refine Moves.invariant (I := fun d => alreadyClawedBack grant d = alreadyClawedBack grant db) ?_
    (expireDueLots_moves env w (P := Move.IsSweep) trivial (fun _ => trivial) db) rfl
  rintro m db₁ db₂ hm hI hs
  cases hs with
  | sync => exact hI
  | expire _ _ _ =>
    refine Eq.trans (alreadyClawedBack_insert (fun hn => ?_) rfl) hI
    cases hn.1
  | _ => exact hm.elim

variable (env) in
/-- What the booking of a clawback stores: its text goes on the row and on the debt. -/
theorem bookClawback_stores (grant : ℕ) (txn : Transaction) (requested reclaimed forgiven : ℤ)
    {text : String} (htext : text ≠ "") (metadata : Metadata) (taken : List (ℕ × ℤ)) (d : Db) :
    let d' := (bookClawback env grant txn requested reclaimed forgiven (some text) metadata taken d).2
    d'.holds = d.holds ∧ d'.compPeriods = d.compPeriods ∧
      (∃ row, d'.transactions = d.transactions.insert row ∧ row.description = some text ∧
        row.metadata .clawbackOf = some (.ref .transaction grant)) ∧
      (d'.debts = d.debts ∨
        ∃ debt, d'.debts = d.debts.insert debt ∧ debt.description = some text) := by
  have hor : orText (some text) (some s!"Clawback of {txn.type.value}") = some text :=
    if_neg htext
  unfold bookClawback
  rw [hor]
  by_cases howed : 0 < requested - reclaimed - forgiven
  · simp only [if_pos howed]
    exact ⟨rfl, rfl, ⟨_, rfl, rfl, rfl⟩, Or.inr ⟨_, rfl, rfl⟩⟩
  · simp only [if_neg howed]
    exact ⟨rfl, rfl, ⟨_, rfl, rfl, rfl⟩, Or.inl rfl⟩

/-- **One clawback**: what it stores fits exactly when its text does, it leaves the other
grants with what is due on them, and a text that does not fit stays on its row. -/
theorem clawBackRemaining_fits {grant : ℕ} {txn : Transaction}
    (h : clawBackRemaining env obj grant txn label eventId db = .ok db') :
    ((0 < clawbackDue obj grant txn db → CallsGrant label txn) → db.FitsColumns → db'.FitsColumns) ∧
      (∀ g other, g ≠ grant → clawbackDue obj g other db' = clawbackDue obj g other db) ∧
      (0 < clawbackDue obj grant txn db → ∃ k row, db'.transactions.get? k = some row ∧
        row.description = some (label ++ ": " ++ txn.called)) := by
  unfold clawBackRemaining at h
  dsimp only at h
  split at h
  · rename_i hnone
    obtain rfl := Except.ok.inj h
    exact ⟨fun _ hf => hf, fun _ _ _ => rfl, fun hdue => absurd hdue (by omega)⟩
  · rename_i hdue
    split at h
    · cases h
    rename_i r db₂ hclaw
    obtain rfl := Except.ok.inj h
    obtain ⟨-, requested, taken, forgiven, -, -, -, -, hbook⟩ := clawBackGrant_cases hclaw
    have hdb : db₂ = (bookClawback env grant txn requested (drawn taken) forgiven
        (some (label ++ ": " ++ txn.called)) (eventMetadata label eventId obj) taken
        ((db.swept env txn.wallet).spendLots taken)).2 := congrArg Prod.snd hbook
    have htext : label ++ ": " ++ txn.called ≠ "" := by
      intro he
      have hlength := congrArg String.length he
      have hcolon : ": ".length = 2 := by decide
      rw [String.length_append, String.length_append, hcolon] at hlength
      have hempty : "".length = 0 := by decide
      omega
    -- the text goes on the row, and on the debt if there is one
    obtain ⟨hholds, hcomps, ⟨row, hrows, hcalled, hof⟩, hdebts⟩ :=
      bookClawback_stores env grant txn requested (drawn taken) forgiven htext
        (eventMetadata label eventId obj) taken ((db.swept env txn.wallet).spendLots taken)
    rw [← hdb] at hholds hcomps hrows hdebts
    refine ⟨fun hcall hf => ?_, fun g other hne => ?_, fun _ => ?_⟩
    · have hfits : FitsText (some (label ++ ": " ++ txn.called)) :=
        fitsText_some.mpr (callsGrant_iff.mp (hcall (by omega)))
      have hswept := swept_fitsBooks env txn.wallet hf.books
      refine ⟨⟨?_, ?_, ?_⟩, ?_⟩
      · rw [hrows]
        exact Table.every_insert_iff.mpr ⟨hcalled ▸ hfits, hswept.rows⟩
      · rcases hdebts with he | ⟨debt, he, howed⟩
        · rw [he]
          exact hswept.debts
        · rw [he]
          exact Table.every_insert_iff.mpr ⟨howed ▸ hfits, hswept.debts⟩
      · rw [hcomps]
        exact hswept.comps
      · rw [hholds]
        have hframe : (db.swept env txn.wallet).holds = db.holds := (expireDueLots_frame db).1
        exact hframe ▸ hf.holds
    · -- The row names this grant, so the sums of the others stay.
      have hnot : ¬ NamesGrant g row := by
        intro hn
        have he := hof.symm.trans hn.2
        cases he
        exact hne rfl
      unfold clawbackDue
      rw [alreadyClawedBack_insert hnot hrows]
      exact congrArg (_ - ·) (alreadyClawedBack_swept g)
    · refine ⟨(db.swept env txn.wallet).transactions.next, row, ?_, hcalled⟩
      rw [hrows]
      exact Table.get?_insert_next _ row

/-- A ledger row outlives the clawbacks of a delivery. -/
theorem clawBackEach_row {grants : List (ℕ × Transaction)}
    (h : clawBackEach env obj label eventId grants db = .ok db') {k : ℕ} {row : Transaction}
    (hk : db.transactions.get? k = some row) : db'.transactions.get? k = some row := by
  induction grants generalizing db with
  | nil =>
    obtain rfl := Except.ok.inj h
    exact hk
  | cons r grants ih =>
    unfold clawBackEach at h
    split at h
    · cases h
    rename_i db₁ hfirst
    refine ih h ?_
    rcases clawBackRemaining_cases hfirst with ⟨-, rfl⟩ | ⟨-, _, _, hclaw⟩
    · exact hk
    · exact clawBackGrant_row hclaw hk

/-- **The clawbacks of one delivery** fit exactly when the text of each grant with something
due on it does. -/
theorem clawBackEach_fits_iff {grants : List (ℕ × Transaction)}
    (hnodup : (grants.map Prod.fst).Nodup) (hf : db.FitsColumns)
    (h : clawBackEach env obj label eventId grants db = .ok db') :
    db'.FitsColumns ↔ ∀ r ∈ grants, 0 < clawbackDue obj r.1 r.2 db → CallsGrant label r.2 := by
  induction grants generalizing db with
  | nil =>
    obtain rfl := Except.ok.inj h
    exact ⟨fun _ r hr => absurd hr List.not_mem_nil, fun _ => hf⟩
  | cons first grants ih =>
    obtain ⟨hnot, hnodup'⟩ := List.nodup_cons.mp hnodup
    unfold clawBackEach at h
    split at h
    · cases h
    rename_i db₁ hfirst
    obtain ⟨hstores, hothers, hstays⟩ := clawBackRemaining_fits hfirst
    have hdue : ∀ r ∈ grants, clawbackDue obj r.1 r.2 db₁ = clawbackDue obj r.1 r.2 db := by
      refine fun r hr => hothers r.1 r.2 fun he => hnot ?_
      exact List.mem_map.mpr ⟨r, hr, he⟩
    constructor
    · intro hfits
      have hcall : 0 < clawbackDue obj first.1 first.2 db → CallsGrant label first.2 := by
        intro hpos
        obtain ⟨k, row, hk, hcalled⟩ := hstays hpos
        have hrow : FitsText row.description := hfits.books.rows k row (clawBackEach_row h hk)
        rw [hcalled] at hrow
        exact callsGrant_iff.mpr (fitsText_some.mp hrow)
      have hrest := (ih hnodup' (hstores hcall hf) h).mp hfits
      intro r hr
      rcases List.mem_cons.mp hr with rfl | hr
      · exact hcall
      · rw [← hdue r hr]
        exact hrest r hr
    · intro hcalls
      refine (ih hnodup' (hstores (hcalls first List.mem_cons_self) hf) h).mpr fun r hr => ?_
      rw [hdue r hr]
      exact hcalls r (List.mem_cons_of_mem _ hr)

/-- What a money-back event needs: unless it was delivered before, the text of every grant it
names and takes something of fits behind the label. -/
def ClawbackRoom (event : ProviderEvent ChargeObject) (label : String) (db : Db) : Prop :=
  claimProviderObject .clawback event.id "stripe" db ≠ none →
    ∀ r ∈ grantTransactions event.object db, 0 < clawbackDue event.object r.1 r.2 db →
      CallsGrant label r.2

/-- **A money-back event's texts fit exactly when the grants' own leave room.** -/
theorem handleClawback_fits_iff {event : ProviderEvent ChargeObject} (hf : db.FitsColumns)
    (h : handleClawback env event label db = .ok db') :
    db'.FitsColumns ↔ ClawbackRoom event label db := by
  unfold handleClawback at h
  dsimp only at h
  split at h
  · rename_i hnone
    obtain rfl := Except.ok.inj h
    refine ⟨fun _ _ r hr => ?_, fun _ => hf⟩
    rw [hnone] at hr
    exact absurd hr List.not_mem_nil
  · unfold ClawbackRoom
    split at h
    · rename_i hclaimed
      obtain rfl := Except.ok.inj h
      exact ⟨fun _ hfresh => absurd hclaimed hfresh, fun _ => hf⟩
    · rename_i claimed hclaim
      obtain ⟨e, -, -, -, rfl⟩ := claimProviderObject_some hclaim
      have hnodup : ((grantTransactions event.object db).map Prod.fst).Nodup :=
        orderBy_nodup Table.select_nodup
      refine (clawBackEach_fits_iff hnodup ?_ h).trans ?_
      · exact ⟨⟨hf.books.rows, hf.books.debts, hf.books.comps⟩, hf.holds⟩
      · rw [hclaim]
        exact ⟨fun hcalls _ => hcalls, fun hroom => hroom (Option.some_ne_none _)⟩

end Clawback

/-! ## Comp windows -/

section Comp
variable {args : ExtendArgs}

/-- **A credit's texts fit exactly when its own does**, where it is not a retry. -/
theorem credit_fits_iff {args : CreditArgs} {t : ℕ} (hf : db.FitsColumns)
    (h : credit env args db = .ok (t, db')) : db'.FitsColumns ↔
      (existingCall env (lockWallet args.user db).1 args.idempotencyKey db = none →
        FitsText args.description) := by
  have hholds : db'.holds.Every CreditHold.Fits := fun j held hj => by
    rw [credit_holds h] at hj
    exact hf.holds j held hj
  have hbooks : FitsText args.description → db'.FitsColumns := by
    refine fun hfits => ⟨Moves.fitsBooks (fun m hm => ?_) (credit_moves h) hf.books, hholds⟩
    cases m <;> first | exact trivial | (cases hm; exact hfits) | exact hm.elim
  obtain ⟨w, db₁, hlock, -, -, hcase⟩ := credit_cases h
  have hlocked : db₁.transactions = db.transactions ∧ db₁.FitsBooks := by
    rcases lockWallet_cases hlock with ⟨rfl, -⟩ | ⟨-, rfl, -⟩
    · exact ⟨rfl, hf.books⟩
    · exact ⟨rfl, hf.books.rows, hf.books.debts, hf.books.comps⟩
  have hlookup : existingCall env w args.idempotencyKey db₁ =
      existingCall env w args.idempotencyKey db := by
    unfold existingCall transactionByIdempotencyKey
    rw [hlocked.1]
  rw [hlock]
  rcases hcase with ⟨row, hex, rfl⟩ | ⟨hex, -, hcase⟩
  · refine ⟨fun _ hnone => ?_, fun _ => ⟨hlocked.2, hholds⟩⟩
    rw [← hlookup, hex] at hnone
    cases hnone
  · refine ⟨fun hfits _ => ?_, fun hshort => hbooks (hshort (hlookup.symm.trans hex))⟩
    -- The row a grant books outlives the collections that follow it.
    have hgranted : ∃ row, (grant env w args (db₁.swept env w)).transactions.get?
        (db₁.swept env w).transactions.next = some row ∧ row.description = args.description :=
      ⟨_, Table.get?_insert_next _ _, rfl⟩
    obtain ⟨row, hrow, hcalled⟩ := hgranted
    rw [← hcalled]
    rcases hcase with ⟨-, rfl⟩ | ⟨-, n, hsettle⟩
    · exact hfits.books.rows _ row hrow
    · have hmoves := settleDebts_ok (P := Move.IsSettling) (fun _ _ _ _ => trivial) hsettle
      refine hfits.books.rows _ row (hmoves.row_kept (fun m hm he => ?_) hrow)
      cases m <;> first | exact hm.elim | cases he

theorem length_dropWhile_le (p : Char → Bool) (text : List Char) :
    (text.dropWhile p).length ≤ text.length := (List.dropWhile_sublist p).length_le

/-- Stripping does not lengthen a text. -/
theorem length_strip (text : String) : (strip text).length ≤ text.length := by
  have hfront := length_dropWhile_le isSpace text.toList
  have hback := length_dropWhile_le isSpace
    (text.toList.dropWhile isSpace).reverse
  rw [List.length_reverse] at hback
  rw [strip, String.length_ofList, List.length_reverse]
  exact (hback.trans hfront).trans_eq String.length_toList

theorem length_compBundle (plan baseline reason : String) (credits : ℤ) :
    (s!"Comp bundle: {plan} minus {baseline} ({credits} credits) — {reason}").length =
      plan.length + baseline.length + (toString credits).length + reason.length + 34 := by
  have hcomp : "Comp bundle: ".length = 13 := by decide
  have hminus : " minus ".length = 7 := by decide
  have hopen : " (".length = 2 := by decide
  have hcredits : " credits) — ".length = 12 := by decide
  simp only [String.length_append, toString, hcomp, hminus, hopen, hcredits]
  omega

/-- The credits of the bundle that a call would grant. -/
def ExtendArgs.bundle (env : Env) (args : ExtendArgs) (db : Db) : ℤ :=
  (bundleDifference (args.now.getD env.now) args args.slug (env.settings.bundleOf args.slug)
    (env.settings.bundleOf (baselinePlan args.sub)) db).1

/-- What a comp needs: where it grants a bundle, the two plans, the credits and the reason take
221 characters at most. -/
def ExtendRoom (env : Env) (args : ExtendArgs) (db : Db) : Prop :=
  args.apply = true → args.grantBundle = true → 0 < args.bundle env db →
    ∀ user ∈ args.sub.user, existingCall env (lockWallet user db).1
      s!"comp-bundle:{db.compPeriods.next}" db = none →
    args.slug.length + (baselinePlan args.sub).length + (toString (args.bundle env db)).length +
      (strip args.reason).length ≤ 221

theorem previewExtension_texts {now : Time} {preview : CompPeriodPreview}
    (h : previewExtension env now args db = .ok preview) :
    preview.plan = args.slug ∧ preview.reason = strip args.reason ∧ preview.bundleCredits = none := by
  unfold previewExtension at h
  cases hcheck : checkExtend env args with
  | error e =>
    rw [hcheck] at h
    cases h
  | ok entry =>
    simp only [hcheck] at h
    split at h
    · cases h
    · split at h
      · cases h
      · rw [← Except.ok.inj h]
        exact ⟨checkExtend_slug hcheck, rfl, rfl⟩

theorem previewBundle_texts {now : Time} (preview : CompPeriodPreview)
    (hnone : preview.bundleCredits = none) :
    (previewBundle env now args preview db).plan = preview.plan ∧
      (previewBundle env now args preview db).reason = preview.reason ∧
      (previewBundle env now args preview db).bundleCredits = if args.grantBundle = true then
        some (bundleDifference now args preview.plan (env.settings.bundleOf preview.plan)
          (env.settings.bundleOf (baselinePlan args.sub)) db).1 else none := by
  unfold previewBundle
  split
  · exact ⟨rfl, rfl, rfl⟩
  · exact ⟨rfl, rfl, hnone⟩

/-- A bundle is never negative. -/
theorem bundleDifference_nonneg (now : Time) (slug : String) (bundled included : ℤ) :
    0 ≤ (bundleDifference now args slug bundled included db).1 := by
  unfold bundleDifference
  dsimp only
  split
  · exact le_rfl
  · split
    · exact le_rfl
    · split
      · exact le_rfl
      · show 0 ≤ bundled - included
        omega

/-- What granting a bundle stores. -/
theorem grantCompBundle_fits_iff {preview : CompPeriodPreview} {comp : ℕ} {txn : Option ℕ}
    (hf : db.FitsColumns) (h : grantCompBundle env args preview comp db = .ok (txn, db')) :
    db'.FitsColumns ↔ ∀ credits ∈ preview.bundleCredits, credits ≠ 0 → ∀ user ∈ args.sub.user,
      existingCall env (lockWallet user db).1 s!"comp-bundle:{comp}" db = none →
      preview.plan.length + (baselinePlan args.sub).length + (toString credits).length +
        preview.reason.length ≤ 221 := by
  unfold grantCompBundle at h
  cases huser : args.sub.user with
  | none =>
    rw [huser] at h
    obtain ⟨-, rfl⟩ := Prod.mk.inj (Except.ok.inj h)
    exact ⟨fun _ _ _ _ user hu => (Option.not_mem_none user hu).elim, fun _ => hf⟩
  | some user =>
    cases hcredits : preview.bundleCredits with
    | none =>
      rw [huser, hcredits] at h
      obtain ⟨-, rfl⟩ := Prod.mk.inj (Except.ok.inj h)
      exact ⟨fun _ credits hc => (Option.not_mem_none credits hc).elim, fun _ => hf⟩
    | some credits =>
      rw [huser, hcredits] at h
      dsimp only at h
      split at h
      · rename_i hzero
        obtain ⟨-, rfl⟩ := Prod.mk.inj (Except.ok.inj h)
        refine ⟨fun _ c hc hne => ?_, fun _ => hf⟩
        cases hc
        exact absurd hzero hne
      · rename_i hne
        split at h
        · cases h
        rename_i t db₂ hcredit
        obtain ⟨-, rfl⟩ := Prod.mk.inj (Except.ok.inj h)
        have hlength := length_compBundle preview.plan (baselinePlan args.sub) preview.reason credits
        have hfits : FitsText (compBundleCredit user credits args preview comp).description ↔
            preview.plan.length + (baselinePlan args.sub).length + (toString credits).length +
              preview.reason.length ≤ 221 := by
          refine fitsText_some.trans ?_
          rw [hlength]
          omega
        rw [credit_fits_iff hf hcredit, hfits]
        constructor
        · intro hroom c hc _ u hu
          cases hc
          cases hu
          exact hroom
        · exact fun hroom => hroom credits rfl hne user rfl

/-- What the write transaction of a comp stores. -/
theorem writeExtension_fits_iff {now : Time} {preview written : CompPeriodPreview}
    (hf : db.FitsColumns) (hreason : preview.reason.length ≤ 255) (hplan : preview.plan.length ≤ 16)
    (h : writeExtension env now args preview db = .ok (written, db')) :
    db'.FitsColumns ↔ ∀ credits ∈ preview.bundleCredits, credits ≠ 0 → ∀ user ∈ args.sub.user,
      existingCall env (lockWallet user db).1 s!"comp-bundle:{db.compPeriods.next}" db = none →
      preview.plan.length + (baselinePlan args.sub).length + (toString credits).length +
        preview.reason.length ≤ 221 := by
  unfold writeExtension at h
  split at h
  · cases h
  dsimp only at h
  split at h
  · cases h
  rename_i txn db₂ hgrant
  obtain ⟨-, rfl⟩ := Prod.mk.inj (Except.ok.inj h)
  have hannounced : ∀ d : Db, (announceComp env now args.sub preview.endsAt d).FitsColumns ↔
      d.FitsColumns := by
    intro d
    unfold announceComp
    split
    · exact Iff.rfl
    · exact ⟨fun hd => ⟨⟨hd.books.rows, hd.books.debts, hd.books.comps⟩, hd.holds⟩,
        fun hd => ⟨⟨hd.books.rows, hd.books.debts, hd.books.comps⟩, hd.holds⟩⟩
  rw [hannounced]
  refine (grantCompBundle_fits_iff ?_ hgrant).trans ?_
  · exact ⟨⟨hf.books.rows, hf.books.debts,
      Table.every_insert_iff.mpr ⟨⟨hreason, hplan⟩, hf.books.comps⟩⟩, hf.holds⟩
  · -- The window is in neither of the tables a retry is looked up in.
    have hlock : ∀ user comps, (lockWallet user { db with compPeriods := comps }).1 =
        (lockWallet user db).1 := by
      intro user comps
      unfold lockWallet
      dsimp only
      cases db.wallets.find? fun wallet => wallet.user = some user <;> rfl
    simp only [hlock]
    exact Iff.rfl

/-- **A comp's texts fit exactly when its bundle's leaves room.** -/
theorem extendSubscription_fits_iff {preview : CompPeriodPreview} (hf : db.FitsColumns)
    (hreason : args.reason.length ≤ 255) (hplan : args.slug.length ≤ 16)
    (h : extendSubscription env args db = .ok (preview, db')) :
    db'.FitsColumns ↔ ExtendRoom env args db := by
  unfold extendSubscription at h
  dsimp only at h
  cases hguard : previewExtension env (args.now.getD env.now) args db with
  | error e =>
    rw [hguard] at h
    cases h
  | ok guarded =>
    simp only [hguard] at h
    obtain ⟨hslug, hstrip, hnone⟩ := previewExtension_texts hguard
    obtain ⟨hplanned, hreasoned, hbundle⟩ :=
      @previewBundle_texts env db args (args.now.getD env.now) guarded hnone
    rw [hslug] at hplanned hbundle
    rw [hstrip] at hreasoned
    unfold ExtendRoom
    by_cases happly : args.apply = true
    · rw [if_pos happly] at h
      have hshort : (strip args.reason).length ≤ 255 := (length_strip args.reason).trans hreason
      have hiff := writeExtension_fits_iff hf (hreasoned ▸ hshort) (hplanned ▸ hplan) h
      rw [hiff, hplanned, hreasoned, hbundle]
      by_cases hgrants : args.grantBundle = true
      · rw [if_pos hgrants]
        have hnonneg := @bundleDifference_nonneg db args (args.now.getD env.now) args.slug
          (env.settings.bundleOf args.slug) (env.settings.bundleOf (baselinePlan args.sub))
        constructor
        · exact fun hroom _ _ hpos user hu hfresh => hroom _ rfl (ne_of_gt hpos) user hu hfresh
        · intro hroom credits hc hne user hu hfresh
          cases hc
          exact hroom happly hgrants (lt_of_le_of_ne hnonneg (Ne.symm hne)) user hu hfresh
      · rw [if_neg hgrants]
        exact ⟨fun _ _ hc => absurd hc hgrants,
          fun _ credits hc => (Option.not_mem_none credits hc).elim⟩
    · rw [if_neg happly] at h
      obtain ⟨-, rfl⟩ := Prod.mk.inj (Except.ok.inj h)
      exact ⟨fun _ hc => absurd hc happly, fun _ => hf⟩

end Comp

/-! ## Runs -/

/-- A call that stores texts of its own making. -/
inductive StoringCall
  | mergeWallets (digest : UserId → UserId → String) (fromUser intoUser : UserId)
  | handleClawback (event : ProviderEvent ChargeObject) (label : String)
  | extendSubscription (args : ExtendArgs)

/-- The database a call leaves, where it is served. -/
def StoringCall.exec (c : Env × StoringCall) (db : Db) : Except (BillingError ⊕ ExtendError) Db :=
  match c.2 with
  | .mergeWallets digest fromUser intoUser =>
    ((StapelBilling.mergeWallets c.1 digest fromUser intoUser db).map Prod.snd).mapError Sum.inl
  | .handleClawback event label =>
    (StapelBilling.handleClawback c.1 event label db).mapError Sum.inl
  | .extendSubscription args =>
    ((StapelBilling.extendSubscription c.1 args db).map Prod.snd).mapError Sum.inr

/-- The texts a call brings itself fit; a merge and an event find theirs in the database. -/
def StoringCall.OwnTextsFit : StoringCall → Prop
  | .extendSubscription args => args.reason.length ≤ 255 ∧ args.slug.length ≤ 16
  | _ => True

/-- The room a call needs. -/
def StoringCall.Room (c : Env × StoringCall) (db : Db) : Prop :=
  match c.2 with
  | .mergeWallets digest fromUser intoUser => MergeRoom digest fromUser intoUser db
  | .handleClawback event label => ClawbackRoom event label db
  | .extendSubscription args => ExtendRoom c.1 args db

theorem map_mapError_ok {ε ε' α β : Type} {r : Except ε α} {f : α → β} {g : ε → ε'} {b : β}
    (h : (r.map f).mapError g = .ok b) : ∃ a, r = .ok a ∧ f a = b := by
  cases r with
  | ok a => exact ⟨a, rfl, Except.ok.inj h⟩
  | error e => cases h

/-- **One call** that is served stores texts that fit exactly when it has room. -/
theorem StoringCall.fits_iff {c : Env × StoringCall} (hown : c.2.OwnTextsFit) (hf : db.FitsColumns)
    (h : StoringCall.exec c db = .ok db') : db'.FitsColumns ↔ StoringCall.Room c db := by
  obtain ⟨env, call⟩ := c
  cases call with
  | mergeWallets digest fromUser intoUser =>
    obtain ⟨⟨counts, _⟩, hok, rfl⟩ := map_mapError_ok h
    exact mergeWallets_fits_iff hf hok
  | handleClawback event label =>
    have hmap : ((StapelBilling.handleClawback env event label db).map id).mapError Sum.inl =
        (.ok db' : Except (BillingError ⊕ ExtendError) Db) := by
      rw [Except.map_id]
      exact h
    obtain ⟨_, hok, rfl⟩ := map_mapError_ok hmap
    exact handleClawback_fits_iff hf hok
  | extendSubscription args =>
    obtain ⟨⟨preview, _⟩, hok, rfl⟩ := map_mapError_ok h
    exact extendSubscription_fits_iff hf hown.1 hown.2 hok

/-- **The texts of a run fit exactly when each served call has room.**  From a database whose
texts fit, and with inputs that do, no merge, money-back event or comp ever stores a text that
is wider than its column, if and only if every one of them meets its room. -/
theorem derived_texts_fit_iff {calls : List (Env × StoringCall)} (hf : db.FitsColumns)
    (hown : ∀ c ∈ calls, c.2.OwnTextsFit) :
    (∀ n, (run StoringCall.exec (calls.take n) db).FitsColumns) ↔ ∀ n c db', calls[n]? = some c →
      StoringCall.exec c (run StoringCall.exec (calls.take n) db) = .ok db' →
      StoringCall.Room c (run StoringCall.exec (calls.take n) db) :=
  run_always_iff hf fun c hc _ _ hfits hok => StoringCall.fits_iff (hown c hc) hfits hok

/-! ## Texts near the limit -/

/-- A text of `n` characters. -/
def wide (n : ℕ) : String := String.ofList (List.replicate n 'k')

theorem length_wide (n : ℕ) : (wide n).length = n := by
  rw [wide, String.length_ofList, List.length_replicate]

/-- Two accounts that reserved under one key. -/
def reservedTwice (key : String) : Db where
  users := [1, 2]
  wallets := (Table.empty.insert { user := some 1 }).insert { user := some 2 }
  holds := (Table.empty.insert
    { wallet := 0
      credits := 0
      type := .aiCharge
      idempotencyKey := key
      createdAt := 0
      allocations := Table.empty }).insert
    { wallet := 1
      credits := 0
      type := .aiCharge
      idempotencyKey := key
      createdAt := 0
      allocations := Table.empty }

theorem every_empty {α : Type} (p : α → Prop) : (Table.empty : Table α).Every p :=
  fun _ _ hk => Table.get?_empty_ne hk

theorem reservedTwice_fits {key : String} (hkey : key.length ≤ 255) :
    (reservedTwice key).FitsColumns := by
  refine ⟨⟨every_empty _, every_empty _, every_empty _⟩, ?_⟩
  have hheld : ∀ held : CreditHold, held.idempotencyKey = key → held.description = none →
      held.Fits := by
    intro held hk hnone
    rw [CreditHold.Fits, hk, hnone]
    exact ⟨hkey, fun _ ht => (Option.not_mem_none _ ht).elim⟩
  exact Table.every_insert_iff.mpr ⟨hheld _ rfl rfl,
    Table.every_insert_iff.mpr ⟨hheld _ rfl rfl, every_empty _⟩⟩

/-- The first account folded into the second. -/
def foldTwo : Env × StoringCall := (Env.plain 1, .mergeWallets (fun _ _ => "digest") 1 2)

/-- A key that leaves room: the merge renames it and it fits. -/
theorem derived_texts_fit_iff_renamed :
    (run StoringCall.exec [foldTwo] (reservedTwice "job")).FitsColumns := by
  have hjob : "job".length = 3 := by decide
  have hown : ∀ c ∈ [foldTwo], c.2.OwnTextsFit := List.forall_mem_singleton.mpr trivial
  refine (derived_texts_fit_iff (reservedTwice_fits (by omega)) hown).mpr (fun n c db' hc _ => ?_) 1
  cases n with
  | zero =>
    obtain rfl := Option.some.inj hc
    intro _ merged wallet survivor db₁ _ _ h held hh _
    have hall : (reservedTwice "job").holds.Every fun held => held.idempotencyKey.length ≤ 211 :=
      Table.every_insert_iff.mpr ⟨show "job".length ≤ 211 by omega,
        Table.every_insert_iff.mpr ⟨show "job".length ≤ 211 by omega, every_empty _⟩⟩
    exact hall h held hh
  | succ n => cases hc

/-- A purchase under a long description, paid by the charge `refundedCharge` names. -/
def longPurchase : Db where
  users := [1]
  wallets := Table.empty.insert { user := some 1, balance := 100 }
  lots := Table.empty.insert
    { wallet := 0
      source := .purchase
      creditsInitial := 100
      creditsRemaining := 100
      grantingTransaction := some 0
      createdAt := 0
      uuid := 0 }
  transactions := Table.empty.insert
    { wallet := 0
      lot := some 0
      type := .creditPurchase
      creditsDelta := 100
      balanceAfter := 100
      description := some (wide 255)
      metadata := Metadata.empty.set .stripePaymentIntent (.str "pi_1")
      createdAt := 0
      uuid := 0 }

/-- The whole of it goes back. -/
def longRefund : ProviderEvent ChargeObject where
  id := some "evt_1"
  type := "charge.refunded"
  object := refundedCharge

/-- A call that stores a text wider than its column, although every text it finds or is given
fits. -/
def Outgrows (c : Env × StoringCall) (db : Db) : Prop :=
  db.FitsColumns ∧ c.2.OwnTextsFit ∧ ¬ (commit (StoringCall.exec c) db).FitsColumns

theorem not_fits_row {k n : ℕ} (hn : 255 < n)
    (h : ((db.transactions.get? k).bind Transaction.description).map String.length = some n) :
    ¬ db.FitsColumns := by
  intro hf
  obtain ⟨text, htext, rfl⟩ := Option.map_eq_some_iff.mp h
  obtain ⟨row, hrow, hcalled⟩ := Option.bind_eq_some_iff.mp htext
  exact absurd (hf.books.rows k row hrow text hcalled) (by omega)

theorem not_fits_hold {k n : ℕ} (hn : 255 < n)
    (h : (db.holds.get? k).map (fun held => held.idempotencyKey.length) = some n) :
    ¬ db.FitsColumns := by
  intro hf
  obtain ⟨held, hheld, rfl⟩ := Option.map_eq_some_iff.mp h
  exact absurd (hf.holds k held hheld).1 (by omega)

/-- A comp of `pro` with its bundle, for a long reason. -/
def longReason : ExtendArgs :=
  { subscription := 0
    sub := { user := some 1 }
    days := some 30
    reason := wide 255
    plan := some "pro"
    grantBundle := true
    apply := true }

/-- **Three texts that fit make three that do not**: a key of 255 characters that two accounts
share, a description of 255 on a grant that is refunded, and a comp's reason of 255. -/
theorem texts_outgrow_columns :
    Outgrows foldTwo (reservedTwice (wide 255)) ∧
      Outgrows (Env.plain 1, .handleClawback longRefund "refund") longPurchase ∧
      Outgrows (Env.plain 1, .extendSubscription longReason) plainAccount := by
  refine ⟨⟨reservedTwice_fits (length_wide 255).le, trivial, ?_⟩, ⟨?_, trivial, ?_⟩, ⟨?_, ?_, ?_⟩⟩
  · exact @not_fits_hold _ 0 299 (by decide) (by decide +kernel)
  · refine ⟨⟨?_, every_empty _, every_empty _⟩, every_empty _⟩
    exact Table.every_insert_iff.mpr ⟨fitsText_some.mpr (length_wide 255).le, every_empty _⟩
  · exact @not_fits_row _ 1 263 (by decide) (by decide +kernel)
  · exact ⟨⟨every_empty _, every_empty _, every_empty _⟩, every_empty _⟩
  · exact ⟨(length_wide 255).le, show longReason.slug.length ≤ 16 by decide +kernel⟩
  · exact @not_fits_row _ 0 299 (by decide) (by decide +kernel)

end StapelBilling
