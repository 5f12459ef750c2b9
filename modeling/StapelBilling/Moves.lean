import StapelBilling.Clawback

/-! # Bookkeeping moves

Every wallet operation is a sequence of a few bookkeeping moves: a lot is swept,
a grant is booked, credits are drawn and charged, reserved, handed back, billed,
clawed back or restored.  `Step` says once what each move does and when it is
made; `Moves` is a sequence of them whose labels are all of an allowed kind.  An
operation is described by the moves it makes, and an invariant is proved move by
move.
-/
namespace StapelBilling
open Store

/-! ## Drawing credits -/

/-- `taken` is drawn off distinct lots of a kind, from each no more than it
holds. -/
structure Db.Draws (db : Db) (P : CreditLot → Prop) (taken : List (ℕ × ℤ)) : Prop where
  nodup : (taken.map Prod.fst).Nodup
  lot : ∀ k n, (k, n) ∈ taken →
    0 < n ∧ ∃ lot, db.lots.get? k = some lot ∧ P lot ∧ n ≤ lot.creditsRemaining

/-- The database once the amounts drawn have left their lots. -/
def Db.spendLots (db : Db) (taken : List (ℕ × ℤ)) : Db :=
  { db with lots := db.lots.drain CreditLot.spend taken }

theorem Db.Draws.nil (db : Db) (P : CreditLot → Prop) : db.Draws P [] :=
  ⟨List.nodup_nil, fun _ _ h => absurd h List.not_mem_nil⟩

theorem Db.Draws.imp {db : Db} {P Q : CreditLot → Prop} {taken : List (ℕ × ℤ)}
    (h : db.Draws P taken) (hPQ : ∀ lot, P lot → Q lot) : db.Draws Q taken := by
  refine ⟨h.nodup, fun k n hmem => ?_⟩
  obtain ⟨hpos, lot, hlot, hP, hle⟩ := h.lot k n hmem
  exact ⟨hpos, lot, hlot, hPQ lot hP, hle⟩

theorem Db.Draws.drawn_nonneg {db : Db} {P : CreditLot → Prop} {taken : List (ℕ × ℤ)}
    (h : db.Draws P taken) : 0 ≤ drawn taken := by
  refine List.sum_nonneg fun x hx => ?_
  obtain ⟨⟨k, n⟩, hmem, rfl⟩ := List.mem_map.mp hx
  exact (h.lot k n hmem).1.le

/-- A walk over ordered lots of a kind draws from lots of that kind. -/
theorem Db.draws_walk {κ : Type} [LinearOrder κ] (db : Db) (key : ℕ × CreditLot → κ)
    (P : CreditLot → Prop) [DecidablePred P] (n : ℤ) :
    db.Draws P (draw n ((orderBy key (db.lots.select P)).map
      fun r => (r.1, r.2.creditsRemaining))) := by
  refine ⟨draw_nodup ?_, fun k m hmem => ?_⟩
  · rw [List.map_map]
    exact orderBy_nodup Table.select_nodup
  · obtain ⟨hpos, held, hheld, hle⟩ := draw_mem hmem
    obtain ⟨⟨j, lot⟩, hlot, he⟩ := List.mem_map.mp hheld
    obtain ⟨rfl, rfl⟩ := Prod.mk.inj he
    obtain ⟨hget, hP⟩ := Table.mem_select.mp (mem_orderBy.mp hlot)
    exact ⟨hpos, lot, hget, hP, hle⟩

theorem liveLots_total (w : ℕ) (now : Time) (db : Db) :
    ((db.liveLotsOrdered w now).map fun r => r.2.creditsRemaining).sum = db.liveBalance w now := by
  unfold Db.liveLotsOrdered Db.liveBalance
  rw [orderBy_sum]
  exact Table.sum_select db.lots _ fun _ lot => lot.creditsRemaining

/-- The lots a spend of wallet `w` may draw from. -/
def Spendable (w : ℕ) (now : Time) (lot : CreditLot) : Prop := lot.wallet = w ∧ lot.Live now

/-- **What a spend does**: it draws exactly the amount, off live lots. -/
theorem consumeLots_ok {w : ℕ} {n : ℤ} {now : Time} {db db' : Db} {taken : List (ℕ × ℤ)}
    (hn : 0 ≤ n) (h : consumeLots w n now db = .ok (taken, db')) :
    db.Draws (Spendable w now) taken ∧ drawn taken = n ∧ db' = db.spendLots taken := by
  simp only [consumeLots] at h
  split at h
  · cases h
  · rename_i hle
    obtain ⟨rfl, rfl⟩ := Prod.mk.inj (Except.ok.inj h)
    refine ⟨(Db.draws_walk db _ (fun lot => lot.wallet = w ∧ lot.Live now) n).imp fun _ h => h,
      ?_, rfl⟩
    rw [drawn_draw hn]
    · have htotal : drawn ((db.liveLotsOrdered w now).map fun r => (r.1, r.2.creditsRemaining)) =
          ((db.liveLotsOrdered w now).map fun r => r.2.creditsRemaining).sum := by
        simp [drawn, Function.comp_def]
      rw [htotal]
      omega
    · intro p hp
      obtain ⟨r, hr, rfl⟩ := List.mem_map.mp hp
      have hlive := (Table.mem_select.mp (mem_orderBy.mp hr)).2.2.1
      exact hlive.le

/-- A spend that the live lots cover is served. -/
theorem consumeLots_of_le {w : ℕ} {n : ℤ} {now : Time} {db : Db}
    (h : n ≤ db.liveBalance w now) : ∃ taken, consumeLots w n now db = .ok (taken, db.spendLots taken) := by
  unfold consumeLots
  rw [if_neg (by rw [liveLots_total]; omega)]
  exact ⟨_, rfl⟩

theorem takeCredits_ok {w : ℕ} {n : ℤ} {now : Time} {db db' : Db} {taken : List (ℕ × ℤ)}
    (hn : 0 ≤ n) (h : takeCredits w n now db = .ok (taken, db')) :
    db.Draws (Spendable w now) taken ∧ drawn taken = n ∧ db' = db.spendLots taken := by
  unfold takeCredits at h
  split at h
  · rename_i hzero
    obtain ⟨rfl, rfl⟩ := Prod.mk.inj (Except.ok.inj h)
    exact ⟨Db.Draws.nil db _, hzero.symm, rfl⟩
  · exact consumeLots_ok hn h

/-! ## The moves -/

/-- The label of a move, with what the operation brings to it. -/
inductive Move
  | openWallet (user : UserId)
  | sync
  | expire (k : ℕ)
  | grant (args : CreditArgs)
  | collect (k : ℕ) (debt : CreditDebt) (amount : ℤ) (taken : List (ℕ × ℤ))
  | meter (args : DebitArgs)
  | charge (args : DebitArgs) (chargeable : ℤ) (taken : List (ℕ × ℤ))
  | arm (args : HoldArgs) (credits : ℤ) (metadata : Metadata)
  | refund (h : ℕ)
  | overdraw (h : ℕ)
  | bill (args : CaptureArgs) (held : CreditHold)
  | waive (args : CaptureArgs) (held : CreditHold)
  | settle (h : ℕ) (held : CreditHold)
  | clawback (grant : ℕ) (requested reclaimed forgiven : ℤ) (metadata : Metadata)
      (taken : List (ℕ × ℤ))
  | cancel (k : ℕ)
  | restore (grant : Option ℕ) (givenBack : ℤ)
  | mark (k : ℕ)

/-- The credits a hold's allocations still draw. -/
def CreditHold.allocated (held : CreditHold) : ℤ := held.allocations.sum fun _ alloc => alloc.credits

/-- A hold whose reservation is what its allocations draw. -/
structure CreditHold.Backed (held : CreditHold) : Prop where
  nonneg : ∀ a alloc, held.allocations.get? a = some alloc → 0 ≤ alloc.credits
  total : held.allocated = held.credits
  waived : held.metadata.wasWaived = true → held.credits = 0

/-- Did the hold end without a charge? -/
def HoldStatus.GivenBack (status : HoldStatus) : Prop := status = .released ∨ status = .expired

theorem HoldStatus.GivenBack.ne_held {status : HoldStatus} (h : status.GivenBack) :
    status ≠ .held := by
  rcases h with rfl | rfl <;> decide

theorem HoldStatus.GivenBack.ne_captured {status : HoldStatus} (h : status.GivenBack) :
    status ≠ .captured := by
  rcases h with rfl | rfl <;> decide

/-- **One move of an operation on wallet `w`.**  The moves that resolve a hold name
the hold as the operation first read it: what they book is what the hold then
allocates, provided its reservation was backed. -/
inductive Step (env : Env) (w : ℕ) : Move → Db → Db → Prop
  /-- The user's first operation opens a wallet. -/
  | openWallet {db : Db} {user : UserId} (hw : db.wallets.next = w)
      (hnew : ∀ k wallet, db.wallets.get? k = some wallet → wallet.user ≠ some user) :
      Step env w (.openWallet user) db
        { db with wallets := db.wallets.insert { user := some user } }
  | sync {db : Db} : Step env w .sync db (db.syncBalance w env.now)
  | expire {db : Db} {k : ℕ} {lot : CreditLot} {running : ℤ} (hlot : db.lots.get? k = some lot)
      (hw : lot.wallet = w) (hdue : lot.Due env.now) :
      Step env w (.expire k) db (expireLot env w k lot running db)
  | grant {db : Db} {args : CreditArgs} (hpos : 0 < args.credits)
      (halive : ¬ dueAt env.now args.expiresAt) :
      Step env w (.grant args) db (grant env w args db)
  | collect {db : Db} {k : ℕ} {debt : CreditDebt} {amount : ℤ} {taken : List (ℕ × ℤ)}
      (hdebt : db.debts.get? k = some debt) (hw : debt.wallet = w) (hopen : debt.Open)
      (hpos : 0 < amount) (hle : amount ≤ debt.creditsOutstanding)
      (htaken : db.Draws (Spendable w env.now) taken) (hdrawn : drawn taken = amount) :
      Step env w (.collect k debt amount taken) db
        (collectDebt env w k debt amount taken (db.spendLots taken))
  | meter {db : Db} {args : DebitArgs} : Step env w (.meter args) db (meterOnlyDebit env w args db).2
  | charge {db : Db} {args : DebitArgs} {chargeable : ℤ} {taken : List (ℕ × ℤ)}
      (hle : chargeable ≤ args.credits) (htaken : db.Draws (Spendable w env.now) taken)
      (hdrawn : drawn taken = chargeable) :
      Step env w (.charge args chargeable taken) db
        (chargeDebit env w args chargeable taken (db.spendLots taken)).2
  /-- A hold is armed with fresh allocations, on a new row or on a resolved one. -/
  | arm {db : Db} {args : HoldArgs} {credits : ℤ} {metadata : Metadata} {existing : Option ℕ}
      {taken : List (ℕ × ℤ)}
      (hexisting : ∀ k ∈ existing, ∃ held, db.holds.get? k = some held ∧ held.wallet = w ∧
        held.status.GivenBack)
      (hcredits : credits = args.credits ∧ metadata = args.metadata ∨
        credits = 0 ∧ metadata = args.metadata.mark args.credits)
      (htaken : db.Draws (Spendable w env.now) taken) (hdrawn : drawn taken = credits) :
      Step env w (.arm args credits metadata) db
        (armHold env w args credits metadata existing taken (db.spendLots taken)).2
  /-- Part of an allocation comes back as a lot. -/
  | refund {db : Db} {h a : ℕ} {held : CreditHold} {alloc : HoldAllocation} {amount : ℤ}
      (hheld : db.holds.get? h = some held) (hw : held.wallet = w) (hstatus : held.status = .held)
      (halloc : held.allocations.get? a = some alloc) (hpos : 0 < amount)
      (hle : amount ≤ alloc.credits) :
      Step env w (.refund h) db (refundAllocation env h w a alloc amount db)
  /-- A capture above the reservation draws the rest and allocates it. -/
  | overdraw {db : Db} {h : ℕ} {held : CreditHold} {taken : List (ℕ × ℤ)}
      (hheld : db.holds.get? h = some held) (hw : held.wallet = w) (hstatus : held.status = .held)
      (htaken : db.Draws (Spendable w env.now) taken) :
      Step env w (.overdraw h) db (allocateMore env h taken (db.spendLots taken))
  | bill {db : Db} {args : CaptureArgs} {held current : CreditHold} {actual : ℤ}
      (hheld : db.holds.get? args.hold = some current) (hw : current.wallet = w)
      (hstatus : current.status = .held) (hactual : held.Backed → current.allocated = actual) :
      Step env w (.bill args held) db (billHold env w held actual args db).2
  | waive {db : Db} {args : CaptureArgs} {held : CreditHold} {actual : ℤ}
      (hheld : db.holds.get? args.hold = some held) (hw : held.wallet = w)
      (hstatus : held.status = .held) (hwaived : held.metadata.wasWaived = true) :
      Step env w (.waive args held) db (meterOnlyCapture env w held actual args db).2
  | settle {db : Db} {h : ℕ} {held current : CreditHold} {status : HoldStatus}
      (hheld : db.holds.get? h = some current) (hw : current.wallet = w)
      (hnone : held.Backed → current.allocated = 0)
      (hstatus : current.status = .held ∧ status.GivenBack) :
      Step env w (.settle h held) db (settleHold env h status db)
  | clawback {db : Db} {grant : ℕ} {txn : Transaction} {requested forgiven : ℤ}
      {description : Option String} {metadata : Metadata} {taken : List (ℕ × ℤ)}
      (hw : txn.wallet = w)
      (htaken : db.Draws (fun lot => lot.grantingTransaction = some grant) taken) :
      Step env w (.clawback grant requested (drawn taken) forgiven metadata taken) db
        (bookClawback env grant txn requested (drawn taken) forgiven description metadata taken
          (db.spendLots taken)).2
  | cancel {db : Db} {k : ℕ} {eventId : Option String} :
      Step env w (.cancel k) db (cancelDebt env k eventId db)
  | restore {db : Db} {k : ℕ} {grant : Option ℕ} {givenBack : ℤ} {eventId : Option String}
      (hpos : 0 < givenBack) :
      Step env w (.restore grant givenBack) db (restoreCredits env w k grant givenBack eventId db)
  | mark {db : Db} {k : ℕ} {requested : ℤ} {eventId : Option String} :
      Step env w (.mark k) db (markReversed k requested eventId db)

/-- A sequence of moves, all of an allowed kind. -/
abbrev Moves (env : Env) (w : ℕ) (Allowed : Move → Prop) : Db → Db → Prop :=
  Relation.ReflTransGen fun db db' => ∃ m, Allowed m ∧ Step env w m db db'

namespace Moves
variable {env : Env} {w : ℕ} {Allowed : Move → Prop} {db db' : Db}

theorem single {m : Move} (hm : Allowed m) (h : Step env w m db db') : Moves env w Allowed db db' :=
  Relation.ReflTransGen.single ⟨m, hm, h⟩

theorem mono {Allowed' : Move → Prop} (hle : ∀ m, Allowed m → Allowed' m)
    (h : Moves env w Allowed db db') : Moves env w Allowed' db db' :=
  Relation.ReflTransGen.mono (fun _ _ ⟨m, hm, hs⟩ => ⟨m, hle m hm, hs⟩) _ _ h

/-- **The invariant rule.**  What every allowed move keeps, a sequence keeps. -/
theorem invariant {I : Db → Prop} (hstep : ∀ m db db', Allowed m → I db → Step env w m db db' → I db')
    (h : Moves env w Allowed db db') (hI : I db) : I db' := by
  induction h with
  | refl => exact hI
  | tail _ hlast ih =>
    obtain ⟨m, hm, hs⟩ := hlast
    exact hstep m _ _ hm ih hs

end Moves
end StapelBilling
