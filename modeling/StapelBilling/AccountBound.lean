import StapelBilling.GrantOrigins
import StapelBilling.MergeRuns

/-! # Account-bound credits and merges

A merge forfeits the account-bound lots of the merged wallet.  Credits of such a grant
that are reserved in an open hold are in no lot: the hold moves with the account, and what
it hands back afterwards becomes a live lot of the survivor, unless the lot it was drawn
from is dead by then.
-/
namespace StapelBilling
open Store

variable {env : Env} {w merged survivor : ℕ} {db db' d : Db} {B : ℕ → Prop} {t : Time}

/-- No lot of these grants holds anything. -/
def Db.Spent (B : ℕ → Prop) (db : Db) : Prop :=
  ∀ k lot, db.lots.get? k = some lot → lot.From B → lot.creditsRemaining ≤ 0

/-- The open holds draw on no lot of these grants that is alive at `t`. -/
def Db.ReservesDead (B : ℕ → Prop) (t : Time) (db : Db) : Prop :=
  ∀ h held, db.holds.get? h = some held → held.status = .held → ∀ a alloc,
    held.allocations.get? a = some alloc → 0 < alloc.credits → ∀ lot,
    db.lots.get? alloc.lot = some lot → lot.From B → dueAt t lot.expiresAt

/-! ## What a merge leaves of reservations -/

theorem CreditLot.From.of_terms {a b : CreditLot} (h : a.From B) (hterms : a.terms = b.terms) :
    b.From B := by
  obtain ⟨g, hg, hb⟩ := h
  have hgrant : a.grantingTransaction = b.grantingTransaction := congrArg Prod.fst hterms
  exact ⟨g, hgrant ▸ hg, hb⟩

/-- Each hold reserves what it reserved, off lots with the terms they had. -/
structure Db.SameReservations (db db' : Db) : Prop where
  holds : ∀ h, (db'.holds.get? h).map (fun held => (held.status, held.allocations)) =
    (db.holds.get? h).map fun held => (held.status, held.allocations)
  lots : ∀ k, (db'.lots.get? k).map CreditLot.terms = (db.lots.get? k).map CreditLot.terms

namespace Db.SameReservations

theorem refl (db : Db) : db.SameReservations db := ⟨fun _ => rfl, fun _ => rfl⟩

theorem trans (h : db.SameReservations d) (h' : d.SameReservations db') :
    db.SameReservations db' :=
  ⟨fun k => (h'.holds k).trans (h.holds k), fun k => (h'.lots k).trans (h.lots k)⟩

theorem symm (h : db.SameReservations db') : db'.SameReservations db :=
  ⟨fun k => (h.holds k).symm, fun k => (h.lots k).symm⟩

/-- An open hold before is one after, with its allocations. -/
theorem hold (h : db.SameReservations db') {k : ℕ} {held : CreditHold}
    (hk : db.holds.get? k = some held) : ∃ held', db'.holds.get? k = some held' ∧
      held'.status = held.status ∧ held'.allocations = held.allocations := by
  have hmap := h.holds k
  rw [hk, Option.map_some, Option.map_eq_some_iff] at hmap
  obtain ⟨held', hget, hsame⟩ := hmap
  obtain ⟨hstatus, hallocations⟩ := Prod.mk.inj hsame
  exact ⟨held', hget, hstatus, hallocations⟩

theorem lot (h : db.SameReservations db') {k : ℕ} {lot : CreditLot}
    (hk : db.lots.get? k = some lot) : ∃ lot', db'.lots.get? k = some lot' ∧
      lot'.terms = lot.terms := by
  have hmap := h.lots k
  rw [hk, Option.map_some, Option.map_eq_some_iff] at hmap
  exact hmap

theorem reservesDead (h : db.SameReservations db') (hd : db.ReservesDead B t) :
    db'.ReservesDead B t := by
  intro k held' hk hstatus a alloc ha hpos lot' hlot' hfrom
  obtain ⟨held, hget, hsame, hallocations⟩ := h.symm.hold hk
  obtain ⟨lot, hlot, hterms⟩ := h.symm.lot hlot'
  have hexpires : lot.expiresAt = lot'.expiresAt := congrArg Prod.snd hterms
  rw [← hexpires]
  exact hd k held hget (hsame.trans hstatus) a alloc (hallocations ▸ ha) hpos lot hlot
    (hfrom.of_terms hterms.symm)

theorem withSubscriptions (h : db.SameReservations db') (subscriptions : Table Subscription) :
    db.SameReservations { db' with subscriptions } := ⟨h.holds, h.lots⟩

end Db.SameReservations

theorem swept_reservations : db.SameReservations (db.swept env w) := by
  refine ⟨fun k => congrArg _ (congrArg (fun t => t.get? k) (expireDueLots_frame db).1), fun k => ?_⟩
  rw [swept_lot, Option.map_map]
  exact congrArg (fun f => (db.lots.get? k).map f) (funext fun lot => lot.sweptAt_terms w env.now)

theorem stripped_reservations : db.SameReservations (db.stripped env merged) := by
  refine ⟨fun k => congrArg _ (congrArg (fun t => t.get? k) stripped_frame.1), fun k => ?_⟩
  rw [stripped_lot, Option.map_map]
  refine congrArg (fun f => (db.lots.get? k).map f) (funext fun lot => ?_)
  rw [Function.comp_apply]
  split
  · rfl
  · exact lot.sweptAt_terms merged env.now

theorem folded_reservations : db.SameReservations (db.folded merged survivor) := by
  constructor
  · intro k
    obtain ⟨key, hget⟩ := @folded_hold db merged survivor k
    rw [hget, Option.map_map]
    rfl
  · intro k
    rw [folded_lot, Option.map_map]
    refine congrArg (fun f => (db.lots.get? k).map f) (funext fun lot => ?_)
    rw [Function.comp_apply]
    split <;> rfl

theorem bookMerge_reservations {key : String} {credits : ℤ} :
    db.SameReservations (bookMerge env key merged survivor credits db) :=
  ⟨fun k => congrArg _ (congrArg (fun t => t.get? k) bookMerge_frame.1),
    (@swept_reservations env survivor _).lots⟩

/-- A collection draws lots down and touches nothing of them else. -/
theorem Step.collect_terms {m : Move} (h : Step env w m db db') (hm : m.IsCollect) {k : ℕ}
    {lot' : CreditLot} (hk : db'.lots.get? k = some lot') :
    ∃ lot, db.lots.get? k = some lot ∧ lot'.terms = lot.terms ∧
      lot'.creditsRemaining ≤ lot.creditsRemaining := by
  cases h with
  | collect _ _ _ _ _ htaken _ =>
    obtain ⟨lot, hlot, rfl | ⟨n, hmem, rfl⟩⟩ := Table.get?_drain htaken.nodup hk
    · exact ⟨_, hlot, rfl, le_rfl⟩
    · have hpos := (htaken.lot k n hmem).1
      refine ⟨lot, hlot, rfl, ?_⟩
      show lot.creditsRemaining - n ≤ lot.creditsRemaining
      omega
  | _ => exact hm.elim

theorem Step.collect_reservations {m : Move} (h : Step env w m db db') (hm : m.IsCollect) :
    db.SameReservations db' := by
  cases h with
  | collect _ _ _ _ _ _ _ =>
    exact ⟨fun _ => rfl, Table.map_get?_drain fun _ _ => rfl⟩
  | _ => exact hm.elim

theorem settleDebts_reservations {n : ℤ} (h : settleDebts env w db = .ok (n, db')) :
    db.SameReservations db' :=
  Moves.invariant (I := fun db' => db.SameReservations db')
    (fun _ _ _ hm hI hs => hI.trans (hs.collect_reservations hm))
    (settleDebts_ok (P := Move.IsCollect) (fun _ _ _ _ => trivial) h) (Db.SameReservations.refl db)

theorem settleDebts_spent {n : ℤ} (h : settleDebts env w db = .ok (n, db')) (hs : db.Spent B) :
    db'.Spent B := by
  refine Moves.invariant (I := Db.Spent B) ?_
    (settleDebts_ok (P := Move.IsCollect) (fun _ _ _ _ => trivial) h) hs
  intro m db₁ db₂ hm hI hstep k lot' hk hfrom
  obtain ⟨lot, hlot, hterms, hle⟩ := hstep.collect_terms hm hk
  exact hle.trans (hI k lot hlot (hfrom.of_terms hterms))

theorem booked_reservations (key : String) :
    db.SameReservations (db.booked env key merged survivor) :=
  (stripped_reservations.trans folded_reservations).trans bookMerge_reservations

/-- **A merge moves reservations and leaves them what they were.** -/
theorem mergeLocked_reservations {key : String} {fromUser intoUser : UserId}
    {counts : MergeCounts}
    (h : mergeLocked env key fromUser intoUser merged survivor db = .ok (counts, db')) :
    db.SameReservations db' := by
  obtain ⟨subscriptions, n, hsettle, -, -⟩ := mergeLocked_cases h
  exact ((booked_reservations key).withSubscriptions subscriptions).trans
    (settleDebts_reservations hsettle)

/-- **A merge empties the lots of grants that are account-bound.** -/
theorem mergeLocked_spent {key : String} {fromUser intoUser : UserId} {counts : MergeCounts}
    (hn : db.LotsNonneg)
    (hbound : ∀ k lot, db.lots.get? k = some lot → lot.From B →
      lot.wallet = merged ∧ db.Bound env.settings.mergeForfeitLotSources merged lot)
    (h : mergeLocked env key fromUser intoUser merged survivor db = .ok (counts, db')) :
    db'.Spent B := by
  obtain ⟨subscriptions, n, hsettle, -, -⟩ := mergeLocked_cases h
  refine settleDebts_spent hsettle fun k lot' hk hfrom => ?_
  obtain ⟨lot, hlot, hterms⟩ := (booked_reservations key).symm.lot hk
  obtain ⟨hw, hb⟩ := hbound k lot hlot (hfrom.of_terms hterms.symm)
  have hbooked := (booked_lot key hn hlot hw).symm.trans hk
  obtain rfl := Option.some.inj hbooked
  rw [if_pos (Or.inr hb)]

/-- **The lots of a grant to an account** are on the account's wallet, and account-bound
where grants are. -/
theorem grantTo_bound {fromUser : UserId} {k : ℕ} {lot : CreditLot} (hh : db.Home)
    (hs : db.SourcesAgree) (hk : db.lots.get? k = some lot)
    (hfrom : lot.From (db.GrantTo fromUser)) :
    (∃ wallet, db.wallets.get? lot.wallet = some wallet ∧ wallet.user = some fromUser) ∧
      db.Bound [.grant] lot.wallet lot := by
  obtain ⟨g, hg, w, wallet, j, first, hwallet, huser, hj, hw, hsource, hgrant⟩ := hfrom
  obtain ⟨row, hrow, hon⟩ := hh.grants j first hj g hgrant
  obtain ⟨row', hrow', hon'⟩ := hh.grants k lot hk g hg
  obtain rfl := Option.some.inj (hrow.symm.trans hrow')
  have hsame : lot.wallet = w := hon'.symm.trans (hon.trans hw)
  refine ⟨⟨wallet, hsame ▸ hwallet, huser⟩, ?_⟩
  rcases hs j k first lot g hj hk hgrant hg hsource with hown | hback
  · exact Or.inl (by rw [hown]; exact List.mem_singleton.mpr rfl)
  · refine Or.inr ⟨hback, g, hg, mem_boundGrants.mpr ⟨j, first, hj, ?_, ?_, hgrant⟩⟩
    · exact hw.trans hsame.symm
    · exact List.mem_singleton.mpr hsource

/-- **A merge that folds** empties the lots of the merged account's grants, and leaves
reservations what they were. -/
theorem mergeWallets_strips {digest : UserId → UserId → String} {fromUser intoUser : UserId}
    {counts : MergeCounts} (hwf : db.Wellformed) (hu : db.UsersUnique) (hs : db.SourcesAgree)
    (hsources : env.settings.mergeForfeitLotSources = [.grant])
    (hnew : ¬ db.HasKey (mergeIdempotencyKey digest fromUser intoUser))
    (h : mergeWallets env digest fromUser intoUser db = .ok (counts, db')) :
    db'.Spent (db.GrantTo fromUser) ∧ db.SameReservations db' := by
  rcases mergeWallets_cases h with ⟨⟨k, row, hk, hkey⟩, -⟩ | ⟨-, ⟨hnone, ⟨subscriptions, rfl⟩, -⟩ |
    ⟨merged, wallet, survivor, db₁, hmerged, hsurvivor, hlocked⟩⟩
  · exact absurd ⟨k, row, hk, hkey⟩ hnew
  · -- Without a wallet nothing was granted to the account.
    refine ⟨fun k lot hk hfrom => ?_, (Db.SameReservations.refl db).withSubscriptions _⟩
    obtain ⟨⟨wallet, hwallet, huser⟩, -⟩ := grantTo_bound hwf.home hs hk hfrom
    exact absurd huser (hnone lot.wallet wallet hwallet)
  · obtain ⟨hget, huser⟩ := Table.find?_some hmerged
    have hopened : db₁.lots = db.lots ∧ db₁.holds = db.holds := by
      rcases survivorWallet_cases hsurvivor with ⟨rfl, -⟩ | ⟨-, -, -, rfl⟩
      · exact ⟨rfl, rfl⟩
      · exact ⟨rfl, rfl⟩
    obtain ⟨hlots, hholds⟩ := hopened
    have hn : db₁.LotsNonneg := (survivorWallet_regular hsurvivor hwf.toRegular).1.nonneg
    refine ⟨mergeLocked_spent hn (fun k lot hk hfrom => ?_) hlocked, ?_⟩
    · rw [hlots] at hk
      obtain ⟨⟨owner, howner, hsame⟩, hbound⟩ := grantTo_bound hwf.home hs hk hfrom
      have hw : lot.wallet = merged := hu lot.wallet merged owner wallet fromUser howner hget hsame huser
      refine ⟨hw, ?_⟩
      unfold Db.Bound Db.boundGrants at hbound ⊢
      rw [hsources, hlots, ← hw]
      exact hbound
    · refine Db.SameReservations.trans (d := db₁) ⟨fun k => ?_, fun k => ?_⟩
        (mergeLocked_reservations hlocked)
      · rw [hholds]
      · rw [hlots]

/-! ## Holds resolved after a merge -/

/-- The moves of a capture or a release. -/
def Move.Resolves : Move → Prop
  | .sync | .expire _ | .refund _ | .overdraw _ | .bill _ _ | .waive _ _ | .settle _ _ => True
  | _ => False

/-- What these grants still hold is on wallet `w` and dead, and so are the lots that open
holds draw on. -/
structure Db.Confined (B : ℕ → Prop) (t : Time) (w : ℕ) (db : Db) : Prop where
  lots : ∀ k lot, db.lots.get? k = some lot → lot.From B → 0 < lot.creditsRemaining →
    lot.wallet = w ∧ dueAt t lot.expiresAt
  reserves : db.ReservesDead B t
  home : db.Home

/-- Does the move add a lot? -/
def Move.AddsLot : Move → Prop
  | .grant _ | .refund _ | .restore _ _ => True
  | _ => False

/-- A lot after a move that adds none held at least as much before. -/
theorem Step.lot_drained {m : Move} (h : Step env w m db db') (hnew : ¬ m.AddsLot) {k : ℕ}
    {lot' : CreditLot} (hk : db'.lots.get? k = some lot') :
    ∃ lot, db.lots.get? k = some lot ∧ lot.Same lot' ∧
      (0 < lot'.creditsRemaining → 0 < lot.creditsRemaining) := by
  have hdrawn : ∀ {P : CreditLot → Prop} {taken : List (ℕ × ℤ)}, db.Draws P taken →
      (db.lots.drain CreditLot.spend taken).get? k = some lot' →
      ∃ lot, db.lots.get? k = some lot ∧ lot.Same lot' ∧
        (0 < lot'.creditsRemaining → 0 < lot.creditsRemaining) := by
    intro P taken htaken hget
    obtain ⟨old, hold, rfl | ⟨n, hmem, rfl⟩⟩ := Table.get?_drain htaken.nodup hget
    · exact ⟨_, hold, rfl, id⟩
    · have hpos := (htaken.lot k n hmem).1
      refine ⟨old, hold, rfl, fun hleft => ?_⟩
      have hleft' : 0 < old.creditsRemaining - n := hleft
      omega
  cases h with
  | openWallet _ _ | sync | bill _ _ _ _ | waive _ _ _ _ | settle _ _ _ _ | cancel | mark =>
    exact ⟨lot', hk, rfl, id⟩
  | expire _ _ _ =>
    have hk' := (Table.get?_modify _ _ _ _).symm.trans hk
    split at hk'
    · obtain ⟨old, hold, rfl⟩ := Option.map_eq_some_iff.mp hk'
      exact ⟨old, hold, rfl, fun hpos => absurd hpos (lt_irrefl 0)⟩
    · exact ⟨lot', hk', rfl, id⟩
  | meter =>
    rw [meterOnlyDebit_lots] at hk
    exact ⟨lot', hk, rfl, id⟩
  | collect _ _ _ _ _ htaken _ => exact hdrawn htaken hk
  | charge _ htaken _ =>
    rw [chargeDebit_lots] at hk
    exact hdrawn htaken hk
  | arm _ _ htaken _ =>
    rw [armHold_lots] at hk
    exact hdrawn htaken hk
  | overdraw _ _ _ htaken => exact hdrawn htaken hk
  | clawback _ htaken =>
    rw [bookClawback_lots] at hk
    exact hdrawn htaken hk
  | grant _ _ | refund _ _ _ _ _ _ | restore _ => exact absurd trivial hnew

/-- **A resolving move keeps these grants confined**: what it hands back goes to its own
wallet under the deadline it had, and what it draws is alive. -/
theorem Step.confined {m : Move} (h : Step env w m db db') (hm : m.Resolves) (ht : t ≤ env.now)
    (hc : db.Confined B t w) : db'.Confined B t w := by
  have hterms : ∀ {a b : CreditLot}, a.Same b → b.terms = a.terms :=
    fun hsame => Prod.ext hsame.grant hsame.expiresAt
  refine ⟨fun k lot' hk hfrom hpos => ?_, ?_, h.home ?_ hc.home⟩
  · by_cases hr : m.IsRefund
    · cases h with
      | @refund _ j a held alloc amount hheld _ hstatus halloc hamount hle =>
        have hk' := (Table.get?_insert _ _ _).symm.trans hk
        split at hk'
        · obtain rfl := Option.some.inj hk'
          obtain ⟨lot, hlot, -⟩ := hc.home.allocations j held hheld a alloc halloc
          have hpos' : 0 < alloc.credits := by omega
          have hdead := hc.reserves j held hheld hstatus a alloc halloc hpos' lot hlot
          rw [hlot] at hfrom ⊢
          exact ⟨rfl, hdead hfrom⟩
        · exact hc.lots k lot' hk' hfrom hpos
      | _ => exact hr.elim
    · have hnew : ¬ m.AddsLot := by
        intro hadds
        cases m <;> first | exact hadds.elim | exact hm.elim | exact hr trivial
      obtain ⟨lot, hlot, hsame, hheld⟩ := h.lot_drained hnew hk
      rw [hsame.wallet, hsame.expiresAt]
      exact hc.lots k lot hlot (hfrom.of_terms (hterms hsame)) (hheld hpos)
  · intro k held' hk hopen a alloc' ha hpos lot' hlot' hfrom
    rcases h.open_allocation hk hopen ha with
      ⟨held, alloc, hget, hstatus, halloc, hsamelot, hle⟩ | ⟨lot, hlot, hw, hlive⟩
    · obtain ⟨lot, hlot, -⟩ := hc.home.allocations k held hget a alloc halloc
      obtain ⟨lot₂, hlot₂, hsame⟩ := h.grows.lots.kept alloc.lot lot hlot
      rw [hsamelot] at hlot₂
      obtain rfl := Option.some.inj (hlot'.symm.trans hlot₂)
      rw [hsame.expiresAt]
      exact hc.reserves k held hget hstatus a alloc halloc (by omega) lot hlot
        (hfrom.of_terms (hterms hsame))
    · -- A lot that was there to be spent is alive, and none of these grants' is.
      obtain ⟨lot₂, hlot₂, hsame⟩ := h.grows.lots.kept _ lot hlot
      obtain rfl := Option.some.inj (hlot'.symm.trans hlot₂)
      have hdead := (hc.lots _ lot hlot (hfrom.of_terms (hterms hsame)) hlive.1).2
      exact absurd hlive.2 (not_aliveAt_iff.mpr (dueAt_of_le ht hdead))
  · cases m <;> first | exact hm.elim | exact trivial

/-- These grants hold nothing, and the lots of theirs that open holds draw on are dead. -/
structure Db.Sealed (B : ℕ → Prop) (t : Time) (db : Db) : Prop where
  spent : db.Spent B
  reserves : db.ReservesDead B t
  home : db.Home

theorem Db.Sealed.confined (h : db.Sealed B t) (w : ℕ) : db.Confined B t w :=
  ⟨fun k lot hk hfrom hpos => absurd (h.spent k lot hk hfrom) (not_le.mpr hpos), h.reserves, h.home⟩

/-- A sweep seals what was confined. -/
theorem Db.Confined.sealed {now : Time} (h : db.Confined B t w) (ht : t ≤ now)
    (hd : db.NoDue w now) : db.Sealed B t := by
  refine ⟨fun k lot hk hfrom => ?_, h.reserves, h.home⟩
  by_contra hpos
  obtain ⟨hw, hdead⟩ := h.lots k lot hk hfrom (not_le.mp hpos)
  exact hd k lot hk hw ⟨not_le.mp hpos, dueAt_of_le ht hdead⟩

theorem Moves.confined {P : Move → Prop} (hP : ∀ m, P m → m.Resolves) (ht : t ≤ env.now)
    (h : Moves env w P db db') (hc : db.Confined B t w) : db'.Confined B t w :=
  Moves.invariant (I := fun db => db.Confined B t w)
    (fun m _ _ hm hI hs => hs.confined (hP m hm) ht hI) h hc

/-- Does the call resolve a hold? -/
def WalletCall.Resolves : WalletCall → Prop
  | .capture _ | .release _ => True
  | _ => False

/-- **Resolving a hold keeps these grants sealed**: the sweep at its end takes whatever it
handed back under a deadline that has passed. -/
theorem exec_sealed {c : WalletCall} (hc : c.Resolves) (ht : t ≤ env.now) (hs : db.Sealed B t)
    (h : c.exec env db = .ok db') : db'.Sealed B t := by
  cases c with
  | capture args =>
    obtain ⟨n, hok⟩ := map_snd_ok h
    obtain ⟨held, hheld, hmoves⟩ := capture_moves hok
    have hconfined := hmoves.confined (fun m hm => by cases m <;> first | exact hm.elim | trivial)
      ht (hs.confined held.wallet)
    simp only [capture, holdWallet, hheld] at hok
    obtain ⟨held', hheld', hcase⟩ := captureLocked_swept hok
    rcases hcase with ⟨rfl, -⟩ | ⟨-, -, hlots, -⟩ | ⟨-, -, hswept⟩
    · exact hs
    · refine ⟨fun k lot hk hfrom => ?_, hconfined.reserves, hconfined.home⟩
      rw [hlots] at hk
      exact hs.spent k lot hk hfrom
    · exact hconfined.sealed ht hswept.noDue
  | release args =>
    obtain ⟨held, hheld, hmoves⟩ := release_moves h
    have hconfined := hmoves.confined (fun m hm => by cases m <;> first | exact hm.elim | trivial)
      ht (hs.confined held.wallet)
    obtain ⟨held', hheld', hcase⟩ := release_cases h
    obtain rfl := Option.some.inj (hheld.symm.trans hheld')
    rcases hcase with ⟨-, rfl⟩ | ⟨-, rfl⟩
    · exact hs
    · exact hconfined.sealed ht releaseHeld_swept.noDue
  | _ => exact hc.elim

/-! ## Before the merge -/

/-- What plain calls keep of where credits come from. -/
structure Db.Traceable (db : Db) : Prop where
  wellformed : db.Wellformed
  usersUnique : db.UsersUnique
  sourcesAgree : db.SourcesAgree
  allocationsNonneg : db.AllocationsNonneg

theorem Db.Bare.traceable (hb : db.Bare) : db.Traceable := by
  refine ⟨hb.wellformed, ?_, ?_, ?_⟩
  · unfold Db.UsersUnique
    rw [hb.wallets]
    exact fun _ _ _ _ _ hj => Table.get?_empty_ne hj
  · unfold Db.SourcesAgree
    rw [hb.lots]
    exact fun _ _ _ _ _ hj => Table.get?_empty_ne hj
  · unfold Db.AllocationsNonneg
    rw [hb.holds]
    exact fun _ _ hk => Table.get?_empty_ne hk

theorem exec_traceable {c : WalletCall} (hc : c.IsPlain) (ht : db.Traceable)
    (h : c.exec env db = .ok db') : db'.Traceable := by
  have hmoves := (exec_moves h).mono fun m hm => WalletCall.Allows.isPlain hc hm
  refine ⟨exec_wellformed ht.wellformed (fun k eventId he => ?_) h, ?_, ?_, ?_⟩
  · rw [he] at hc
    exact hc.elim
  · exact Moves.invariant (I := Db.UsersUnique) (fun _ _ _ _ hI hs => hs.usersUnique hI) hmoves
      ht.usersUnique
  · -- A credit's row is new because every grant's row is on the ledger.
    refine (Moves.invariant (I := fun db => db.Home ∧ db.SourcesAgree) ?_ hmoves
      ⟨ht.wellformed.home, ht.sourcesAgree⟩).2
    rintro m db₁ db₂ hm ⟨hh, hs⟩ hstep
    refine ⟨hstep.home ?_ hh, hstep.sourcesAgree hm hh hs⟩
    cases m <;> first | exact hm.elim | exact trivial
  · exact Moves.invariant (I := Db.AllocationsNonneg)
      (fun _ _ _ _ hI hs => hs.allocationsNonneg hI) hmoves ht.allocationsNonneg

theorem runCalls_traceable (hbare : db.Bare) {calls : List (Env × WalletCall)}
    (hplain : ∀ c ∈ calls, c.2.IsPlain) : (runCalls calls db).Traceable :=
  Store.run_invariant (I := Db.Traceable)
    (fun c hc _ _ hI h => exec_traceable (hplain c hc) hI h) hbare.traceable

/-! ## After the merge -/

/-- A wallet of `user` holds credits of these grants. -/
def Db.Carries (B : ℕ → Prop) (user : UserId) (db : Db) : Prop :=
  ∃ w wallet k lot, db.wallets.get? w = some wallet ∧ wallet.user = some user ∧
    db.lots.get? k = some lot ∧ lot.wallet = w ∧ lot.From B ∧ 0 < lot.creditsRemaining

theorem Db.Spent.not_carries {user : UserId} (h : db.Spent B) : ¬ db.Carries B user := by
  rintro ⟨w, wallet, k, lot, -, -, hk, -, hfrom, hpos⟩
  exact absurd (h k lot hk hfrom) (not_le.mpr hpos)

/-- The rows of these grants are on a wallet of `user`. -/
structure Db.KeptBy (B : ℕ → Prop) (user : UserId) (db : Db) : Prop where
  home : db.Home
  rows : ∀ g, B g → ∃ w wallet, db.wallets.get? w = some wallet ∧ wallet.user = some user ∧
    db.RowOn g w

theorem grantTo_keptBy {user : UserId} (hh : db.Home) : db.KeptBy (db.GrantTo user) user := by
  refine ⟨hh, fun g hg => ?_⟩
  obtain ⟨w, wallet, k, lot, hwallet, huser, hk, hw, -, hgrant⟩ := hg
  exact ⟨w, wallet, hwallet, huser, hw ▸ hh.grants k lot hk g hgrant⟩

theorem Db.KeptBy.not_carries {user other : UserId} (h : db.KeptBy B user) (hne : user ≠ other) :
    ¬ db.Carries B other := by
  rintro ⟨w, wallet, k, lot, hwallet, huser, hk, hw, ⟨g, hgrant, hg⟩, -⟩
  obtain ⟨v, owner, howner, hsame, row, hrow, hv⟩ := h.rows g hg
  obtain ⟨row', hrow', hw'⟩ := h.home.grants k lot hk g hgrant
  obtain rfl := Option.some.inj (hrow.symm.trans hrow')
  have hwv : w = v := hw.symm.trans (hw'.symm.trans hv)
  rw [hwv, howner] at hwallet
  obtain rfl := Option.some.inj hwallet
  exact hne (Option.some.inj (hsame.symm.trans huser))

theorem exec_keptBy {user : UserId} {c : WalletCall} (hc : c.Resolves) (hk : db.KeptBy B user)
    (h : c.exec env db = .ok db') : db'.KeptBy B user := by
  have hmoves := exec_moves h
  refine ⟨exec_home hk.home (fun k eventId he => ?_) h, fun g hg => ?_⟩
  · rw [he] at hc
    exact hc.elim
  · obtain ⟨w, wallet, hwallet, huser, hrow⟩ := hk.rows g hg
    obtain ⟨wallet', hwallet', hsame⟩ := hmoves.wallet_kept hwallet
    exact ⟨w, wallet', hwallet', hsame.user.trans huser, hmoves.grows.rowOn hrow⟩

/-- **A release after a merge brings live reserved credits to the survivor.** -/
theorem release_carries {user : UserId} {h a : ℕ} {held : CreditHold} {alloc : HoldAllocation}
    {lot : CreditLot} {wallet : Wallet} (hn : db.AllocationsNonneg)
    (hheld : db.holds.get? h = some held) (hstatus : held.status = .held)
    (ha : held.allocations.get? a = some alloc) (hpos : 0 < alloc.credits)
    (hlot : db.lots.get? alloc.lot = some lot) (hfrom : lot.From B)
    (halive : aliveAt env.now lot.expiresAt) (hwallet : db.wallets.get? held.wallet = some wallet)
    (huser : wallet.user = some user) :
    (runCalls [(env, .release { hold := h })] db).Carries B user := by
  have hexec : release env { hold := h } db = .ok (releaseHeld env held.wallet held { hold := h } db) := by
    simp only [release, holdWallet, hheld, releaseLocked, hwallet, hstatus, if_true]
  have hrun : runCalls [(env, .release { hold := h })] db =
      releaseHeld env held.wallet held { hold := h } db := Store.commit_ok hexec
  obtain ⟨k, lot', hk, hw, hterms, hleft⟩ := @releaseHeld_returns env held.wallet db held
    { hold := h } a alloc lot (hn h held hheld) ha hpos hlot halive
  obtain ⟨held', hheld', hmoves⟩ := release_moves hexec
  obtain ⟨wallet', hwallet', hsame⟩ := hmoves.wallet_kept hwallet
  rw [hrun]
  exact ⟨held.wallet, wallet', k, lot', hwallet', hsame.user.trans huser, hk, hw,
    hfrom.of_terms hterms.symm, hleft⟩

/-- **When account-bound credits stay behind.**  Grants are forfeited on a merge.  After
any run of credits, spends, holds, releases and captures, and a merge of one account into
another, no captures and releases that follow ever leave the survivor credits of a grant
to the merged account exactly when the merge had been applied before, or no hold that is
open at the merge draws on a lot of such a grant that is still alive. -/
theorem grants_stay_behind_iff {digest : UserId → UserId → String} {fromUser intoUser : UserId}
    {counts : MergeCounts} {before : List (Env × WalletCall)} (hbare : db.Bare)
    (hplain : ∀ c ∈ before, c.2.IsPlain) (hne : fromUser ≠ intoUser)
    (hsources : env.settings.mergeForfeitLotSources = [.grant])
    (h : mergeWallets env digest fromUser intoUser (runCalls before db) = .ok (counts, db')) :
    (∀ after : List (Env × WalletCall), (∀ c ∈ after, c.2.Resolves ∧ env.now ≤ c.1.now) →
      ¬ (runCalls after db').Carries ((runCalls before db).GrantTo fromUser) intoUser) ↔
    (runCalls before db).HasKey (mergeIdempotencyKey digest fromUser intoUser) ∨
      (runCalls before db).ReservesDead ((runCalls before db).GrantTo fromUser) env.now := by
  have htrace := runCalls_traceable hbare hplain
  generalize runCalls before db = d at h htrace ⊢
  have hwf := htrace.wellformed
  by_cases hkey : d.HasKey (mergeIdempotencyKey digest fromUser intoUser)
  · -- The merge changes nothing, and the grants stay on the wallet they are on.
    refine iff_of_true (fun after hafter => ?_) (Or.inl hkey)
    rw [mergeWallets_of_hasKey hkey] at h
    obtain ⟨-, rfl⟩ := Prod.mk.inj (Except.ok.inj h)
    have hkept : (runCalls after d).KeptBy (d.GrantTo fromUser) fromUser :=
      Store.run_invariant (I := Db.KeptBy (d.GrantTo fromUser) fromUser)
        (fun c hc _ _ hI h => exec_keptBy (hafter c hc).1 hI h) (grantTo_keptBy hwf.home)
    exact hkept.not_carries hne
  · rw [or_iff_right hkey]
    obtain ⟨hspent, hsame⟩ := mergeWallets_strips hwf htrace.usersUnique htrace.sourcesAgree
      hsources hkey h
    have hwf' := mergeWallets_wellformed hwf hne h
    constructor
    · intro hnever
      by_contra hlive
      unfold Db.ReservesDead at hlive
      push Not at hlive
      obtain ⟨k, held, hk, hstatus, a, alloc, ha, hpos, lot, hlot, hfrom, halive⟩ := hlive
      -- The hold and the lot it draws on belong to the merged account's wallet.
      obtain ⟨⟨wallet, hwallet, huser⟩, -⟩ :=
        grantTo_bound hwf.home htrace.sourcesAgree hlot hfrom
      obtain ⟨merged, owner, hmerged⟩ : ∃ merged owner,
          d.wallets.find? (fun wallet => wallet.user = some fromUser) = some (merged, owner) := by
        rcases hfind : d.wallets.find? fun wallet => wallet.user = some fromUser with - | r
        · exact absurd huser (Table.find?_none hfind hwallet)
        · exact ⟨r.1, r.2, rfl⟩
      obtain ⟨hget, howner⟩ := Table.find?_some hmerged
      have hon : lot.wallet = merged :=
        htrace.usersUnique _ _ wallet owner fromUser hwallet hget huser howner
      obtain ⟨survivor, hfolds⟩ := mergeWallets_folds hwf.toRegular hne hkey hmerged h
      obtain ⟨lot', hlot', hsurvivor, -, hexpires, hgrant, -⟩ := hfolds.exact.lots _ lot hlot hon
      obtain ⟨held', hk', hstatus', hallocations⟩ := hsame.hold hk
      obtain ⟨into, hinto, hintoUser⟩ := hfolds.owner
      rw [← hallocations] at ha
      have hplace : held'.wallet = survivor := by
        obtain ⟨lot₂, hlot₂, hw⟩ := hwf'.home.allocations k held' hk' a alloc ha
        obtain rfl := Option.some.inj (hlot'.symm.trans hlot₂)
        exact hw.symm.trans hsurvivor
      have hnonneg : db'.AllocationsNonneg := by
        intro j other hj b alloc' hb
        obtain ⟨old, hold, -, hsameAllocations⟩ := hsame.symm.hold hj
        rw [← hsameAllocations] at hb
        exact htrace.allocationsNonneg j old hold b alloc' hb
      have hterms : lot.terms = lot'.terms := Prod.ext hgrant.symm hexpires.symm
      refine hnever [(env, .release { hold := k })] (fun c hc => ?_) ?_
      · obtain rfl := List.mem_singleton.mp hc
        exact ⟨trivial, le_rfl⟩
      · refine release_carries hnonneg hk' (hstatus'.trans hstatus) ha hpos hlot'
          (hfrom.of_terms hterms) ?_ (by rw [hplace]; exact hinto) hintoUser
        rw [hexpires]
        exact not_not.mp fun hd => halive (not_aliveAt_iff.mp hd)
    · intro hdead after hafter
      have hsealed : db'.Sealed (d.GrantTo fromUser) env.now :=
        ⟨hspent, hsame.reservesDead hdead, hwf'.home⟩
      exact (Store.run_invariant (I := Db.Sealed (d.GrantTo fromUser) env.now)
        (fun c hc _ _ hI h => exec_sealed (hafter c hc).1 (hafter c hc).2 hI h)
        hsealed).spent.not_carries

/-- An account is granted credits and reserves some of them. -/
def reservedGrant : List (Env × WalletCall) :=
  [(Env.plain 0, .credit
      { user := 1
        credits := 150
        type := .adjustment
        source := .grant }),
    (Env.plain 1, .hold
      { user := 1
        credits := 40
        type := .aiCharge
        idempotencyKey := "job" })]

theorem grants_stay_behind_iff_reserved : ∃ counts db',
    mergeWallets (Env.plain 5) pairDigest 1 2 (runCalls reservedGrant { users := [1, 2] }) =
      .ok (counts, db') ∧
    ((∀ after : List (Env × WalletCall), (∀ c ∈ after, c.2.Resolves ∧ 5 ≤ c.1.now) →
      ¬ (runCalls after db').Carries
        ((runCalls reservedGrant { users := [1, 2] }).GrantTo 1) 2) ↔
    (runCalls reservedGrant { users := [1, 2] }).HasKey (mergeIdempotencyKey pairDigest 1 2) ∨
      (runCalls reservedGrant { users := [1, 2] }).ReservesDead
        ((runCalls reservedGrant { users := [1, 2] }).GrantTo 1) 5) := by
  have hne : (1 : UserId) ≠ 2 := by decide
  have hbare : Db.Bare { users := [1, 2] } := ⟨rfl, rfl, rfl, rfl, rfl⟩
  obtain ⟨⟨counts, db'⟩, hmerge⟩ : ∃ p, mergeWallets (Env.plain 5) pairDigest 1 2
      (runCalls reservedGrant { users := [1, 2] }) = .ok p := ⟨_, rfl⟩
  refine ⟨counts, db', hmerge, grants_stay_behind_iff hbare (fun c hc => ?_) hne rfl hmerge⟩
  simp only [reservedGrant, List.mem_cons, List.not_mem_nil, or_false] at hc
  rcases hc with rfl | rfl <;> exact trivial

/-- Released after the merge, the forty reserved credits of the grant are the survivor's. -/
theorem reserved_grant_carried : ∃ counts db',
    mergeWallets (Env.plain 5) pairDigest 1 2 (runCalls reservedGrant { users := [1, 2] }) =
      .ok (counts, db') ∧ counts.forfeited = 110 ∧
    (runCalls [(Env.plain 6, .release { hold := 0 })] db').Carries
      ((runCalls reservedGrant { users := [1, 2] }).GrantTo 1) 2 ∧
    (runCalls [(Env.plain 6, .release { hold := 0 })] db').lotsOf 1 = 40 := by
  refine ⟨_, _, rfl, rfl, ⟨1, _, 1, _, rfl, rfl, rfl, rfl, ⟨0, rfl, ?_⟩, by decide⟩, rfl⟩
  exact ⟨0, _, 0, _, rfl, rfl, rfl, rfl, rfl, rfl⟩

end StapelBilling
