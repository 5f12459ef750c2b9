import StapelBilling.Preflight

/-! # Refusals over comm

A debit or a hold that is refused reports a balance.  The service measured the refusal against
the lots after a sweep; the sweep was rolled back with the refusal, and the balance that is
reported is the wallet row's, as the last call that went through left it.

* `MoneyFunction.call`: `billing.debit` and `billing.hold`.
* `refusal_coherent_iff`: a refusal reports what the lots can pay exactly when the row did.
-/
namespace StapelBilling
open Store

/-- The functions that charge. -/
inductive MoneyFunction
  | debit
  | hold

/-- Ask one of them. -/
def MoneyFunction.call (f : MoneyFunction) (env : Env) (seam : UserSeam) (payload : MoneyPayload)
    (db : Db) : Except BillingError (MoneyReply × Db) :=
  match f with
  | .debit => billingDebit env seam payload db
  | .hold => billingHold env seam payload db

/-- **A coherent refusal**: it reports what the live lots can pay, that is less than what was asked
for, and `billing.can_afford` reports the same. -/
structure MoneyReply.Coherent (env : Env) (seam : UserSeam) (payload : MoneyPayload) (db : Db)
    (reply : MoneyReply) : Prop where
  live : reply.balance = some (db.available payload.user env.now)
  short : db.available payload.user env.now < payload.credits
  same : ∃ answer, billingCanAfford env seam payload.user payload.identity payload.credits db =
    .ok (.ok answer, db) ∧ reply.balance = some answer.balance

/-- The row of the user's wallet says what its live lots hold. -/
def Db.RowTrue (db : Db) (user : UserId) (now : Time) : Prop :=
  ∀ w wallet, db.wallets.find? (fun wallet => wallet.user = some user) = some (w, wallet) →
    wallet.balance = db.liveBalance w now

section Refused
variable {env : Env} {seam : UserSeam} {payload : MoneyPayload} {reply : MoneyReply} {db db' : Db}
  {user : UserId}

/-! ## What is refused -/

/-- A debit is only refused for credits where the lots cannot pay. -/
theorem debit_refused (hlots : db.LotsOwned) {args : DebitArgs} {balance required : ℤ}
    (h : debit env args db = .error (.insufficientCredits balance required)) :
    db.available args.user env.now < args.credits := by
  have hpos : 0 < args.credits := by
    by_contra hneg
    unfold debit at h
    rw [if_pos (by omega)] at h
    cases h
  have hfresh : args.Fresh env db := by
    unfold DebitArgs.Fresh
    by_contra hkey
    obtain ⟨r, hr⟩ := Option.ne_none_iff_exists'.mp hkey
    unfold debit at h
    rw [if_neg (by omega)] at h
    dsimp only at h
    rw [hr] at h
    cases h
  by_contra hle
  cases howing : args.allowPartial with
  | true =>
    obtain ⟨result, db', hok, -⟩ := @partial_debit_owes env db hlots args hpos hfresh howing
    rw [h] at hok
    cases hok
  | false =>
    obtain ⟨r, hr⟩ := (debit_succeeds_iff hlots hpos hfresh howing).mpr (Or.inr (not_lt.mp hle))
    rw [h] at hr
    cases hr

/-- A hold is only refused for credits where the lots cannot pay. -/
theorem hold_refused (hlots : db.LotsOwned) {args : HoldArgs} {balance required : ℤ}
    (h : hold env args db = .error (.insufficientCredits balance required)) :
    db.available args.user env.now < args.credits := by
  unfold hold at h
  split at h
  · cases h
  split at h
  · cases h
  rcases hlock : lockWallet args.user db with ⟨w, db₁⟩
  rw [hlock] at h
  rw [← lockWallet_available hlots hlock]
  by_contra hle
  have hreserved : ∀ existing, ∃ r, reserve env w args existing db₁ = .ok r := fun existing =>
    reserve_succeeds_iff.mpr (Or.inr (not_lt.mp hle))
  dsimp only at h
  split at h
  · rename_i k existing hfind
    split at h
    · cases h
    · cases h
    · obtain ⟨r, hr⟩ := hreserved (some k)
      rw [hr] at h
      cases h
    · obtain ⟨r, hr⟩ := hreserved (some k)
      rw [hr] at h
      cases h
  · obtain ⟨r, hr⟩ := hreserved none
    rw [hr] at h
    cases h

/-- The user of a payload that is resolved is the payload's, known from then on, and nothing else
has changed. -/
theorem resolveUser_ok {identity : Bool} {u : UserId} (h : resolveUser seam user identity db = .ok (u, db')) :
    user = u ∧ user ∈ db'.users ∧ db'.wallets = db.wallets ∧ db'.lots = db.lots := by
  unfold resolveUser at h
  split at h
  · rename_i hknown
    obtain ⟨rfl, rfl⟩ := Prod.mk.inj (Except.ok.inj h)
    exact ⟨rfl, hknown, rfl, rfl⟩
  split at h
  · cases h
  split at h
  · cases h
  split at h
  · obtain ⟨rfl, rfl⟩ := Prod.mk.inj (Except.ok.inj h)
    exact ⟨rfl, List.mem_append_right _ (List.mem_singleton_self _), rfl, rfl⟩
  · cases h

theorem resolveUser_error {identity : Bool} {reason : String}
    (h : resolveUser seam user identity db = .error reason) : reason ≠ "insufficient_credits" := by
  unfold resolveUser at h
  split at h
  · cases h
  split at h
  · rw [← Except.error.inj h]
    decide
  split at h
  · rw [← Except.error.inj h]
    decide
  split at h
  · cases h
  · rw [← Except.error.inj h]
    decide

/-- The same wallets and lots can pay the same. -/
theorem available_congr (hwallets : db'.wallets = db.wallets) (hlots : db'.lots = db.lots) (user : UserId)
    (now : Time) : db'.available user now = db.available user now := by
  unfold Db.available
  rw [hwallets]
  split
  · exact liveBalance_congr hlots _ now
  · rfl

/-- **A refusal for credits** is the answer of a charge that the lots of the payload's user cannot
pay, made from the wallet row that is there. -/
theorem call_refused (hlots : db.LotsOwned) {f : MoneyFunction}
    (h : f.call env seam payload db = .ok (reply, db'))
    (hreason : reply.reason = some "insufficient_credits") :
    ∃ known, payload.user ∈ known.users ∧ known.wallets = db.wallets ∧ known.lots = db.lots ∧
      db.available payload.user env.now < payload.credits ∧
      refuseCredits payload.user known = (reply, db') := by
  -- finding the user opens no wallet and moves no lot
  have howned : ∀ {known : Db}, known.wallets = db.wallets → known.lots = db.lots → known.LotsOwned := by
    intro known hwallets hsame k lot hk
    rw [hsame] at hk
    unfold Db.HasWallet
    rw [hwallets]
    exact hlots k lot hk
  cases f with
  | debit =>
    unfold MoneyFunction.call billingDebit at h
    dsimp only at h
    cases hresolve : resolveUser seam payload.user payload.identity db with
    | error reason =>
      rw [hresolve] at h
      obtain ⟨rfl, -⟩ := Prod.mk.inj (Except.ok.inj h)
      exact absurd (Option.some.inj hreason) (resolveUser_error hresolve)
    | ok p =>
      obtain ⟨u, known⟩ := p
      rw [hresolve] at h
      obtain ⟨huser, hknown, hwallets, hsame⟩ := resolveUser_ok hresolve
      subst huser
      dsimp only at h
      split at h
      · rename_i hrefused
        refine ⟨known, hknown, hwallets, hsame, ?_, Except.ok.inj h⟩
        rw [← available_congr hwallets hsame]
        exact debit_refused (howned hwallets hsame) hrefused
      · cases h
      · obtain ⟨rfl, -⟩ := Prod.mk.inj (Except.ok.inj h)
        cases hreason
      · obtain ⟨rfl, -⟩ := Prod.mk.inj (Except.ok.inj h)
        cases hreason
  | hold =>
    unfold MoneyFunction.call billingHold at h
    dsimp only at h
    cases hresolve : resolveUser seam payload.user payload.identity db with
    | error reason =>
      rw [hresolve] at h
      obtain ⟨rfl, -⟩ := Prod.mk.inj (Except.ok.inj h)
      exact absurd (Option.some.inj hreason) (resolveUser_error hresolve)
    | ok p =>
      obtain ⟨u, known⟩ := p
      rw [hresolve] at h
      obtain ⟨huser, hknown, hwallets, hsame⟩ := resolveUser_ok hresolve
      subst huser
      dsimp only at h
      split at h
      · obtain ⟨rfl, -⟩ := Prod.mk.inj (Except.ok.inj h)
        exact absurd (Option.some.inj hreason) (by decide)
      · rename_i hrefused
        refine ⟨known, hknown, hwallets, hsame, ?_, Except.ok.inj h⟩
        rw [← available_congr hwallets hsame]
        exact hold_refused (howned hwallets hsame) hrefused
      · cases h
      · obtain ⟨rfl, -⟩ := Prod.mk.inj (Except.ok.inj h)
        cases hreason

/-! ## What a refusal reports -/

/-- A refusal reports the row of the wallet there is, and zero for a wallet it opens. -/
theorem refuseCredits_reports (h : refuseCredits user db = (reply, db')) :
    (∃ w wallet, db.wallets.find? (fun wallet => wallet.user = some user) = some (w, wallet) ∧
      reply.balance = some wallet.balance ∧ db' = db) ∨
    (db.wallets.find? (fun wallet => wallet.user = some user) = none ∧ reply.balance = some 0 ∧
      db' = { db with wallets := db.wallets.insert { user := some user } }) := by
  unfold refuseCredits getOrCreateWallet at h
  split at h
  · rename_i wallet rest hget
    cases hfind : db.wallets.find? fun wallet => wallet.user = some user with
    | some found =>
      rw [hfind] at hget
      obtain ⟨rfl, rfl⟩ := Prod.mk.inj hget
      obtain ⟨rfl, rfl⟩ := Prod.mk.inj h
      exact Or.inl ⟨found.1, found.2, rfl, rfl, rfl⟩
    | none =>
      rw [hfind] at hget
      obtain ⟨rfl, rfl⟩ := Prod.mk.inj hget
      obtain ⟨rfl, rfl⟩ := Prod.mk.inj h
      exact Or.inr ⟨rfl, rfl, rfl⟩

/-- What a user can pay is never negative. -/
theorem available_nonneg (db : Db) (user : UserId) (now : Time) : 0 ≤ db.available user now := by
  unfold Db.available
  split
  · exact liveBalance_nonneg db _ now
  · exact le_refl 0

/-- A refusal leaves its user what it could pay. -/
theorem refuseCredits_available (hlots : db.LotsOwned) (h : refuseCredits user db = (reply, db'))
    (now : Time) : db'.available user now = db.available user now := by
  rcases refuseCredits_reports h with ⟨w, wallet, -, -, rfl⟩ | ⟨hnone, -, rfl⟩
  · rfl
  · have hlock : lockWallet user db = (db.wallets.next,
        { db with wallets := db.wallets.insert { user := some user } }) := by
      unfold lockWallet
      rw [hnone]
    rw [← lockWallet_available hlots hlock now]
    have hnew : (db.wallets.insert { user := some user }).find?
        (fun wallet => wallet.user = some user) =
        some (db.wallets.next, { user := some user }) :=
      Table.find?_insert_of_none hnone rfl
    unfold Db.available
    dsimp only
    rw [hnew]

/-- The question, asked of a user that is known. -/
theorem billingCanAfford_known {identity : Bool} {credits : ℤ} (huser : user ∈ db.users)
    (hpos : 0 < credits) : ∃ answer, billingCanAfford env seam user identity credits db =
      .ok (.ok answer, db) ∧ answer.balance = db.available user env.now := by
  obtain ⟨answer, hanswer, hbalance, -⟩ := @canAfford_user env db user _ hpos
  refine ⟨answer, ?_, hbalance⟩
  unfold billingCanAfford resolveUser
  rw [if_pos huser]
  dsimp only
  rw [hanswer]

/-- **A refusal is coherent exactly when the wallet's row was true**, for a debit and for a hold,
on every wallet and for every payload. -/
theorem refusal_coherent_iff (hlots : db.LotsOwned) {f : MoneyFunction}
    (h : f.call env seam payload db = .ok (reply, db'))
    (hreason : reply.reason = some "insufficient_credits") :
    reply.Coherent env seam payload db' ↔ db.RowTrue payload.user env.now := by
  obtain ⟨known, huser, hwallets, hsame, hshort, hrefuse⟩ := call_refused hlots h hreason
  have howned : known.LotsOwned := by
    intro k lot hk
    rw [hsame] at hk
    unfold Db.HasWallet
    rw [hwallets]
    exact hlots k lot hk
  have hleft : db'.available payload.user env.now = db.available payload.user env.now :=
    (refuseCredits_available howned hrefuse env.now).trans (available_congr hwallets hsame _ _)
  have hpos : 0 < payload.credits := lt_of_le_of_lt (available_nonneg db payload.user env.now) hshort
  have hknown : payload.user ∈ db'.users := by
    rcases refuseCredits_reports hrefuse with ⟨-, -, -, -, rfl⟩ | ⟨-, -, rfl⟩
    · exact huser
    · exact huser
  obtain ⟨answer, hanswer, hbalance⟩ := @billingCanAfford_known env seam _ _
    payload.identity _ hknown hpos
  constructor
  · intro hcoherent w wallet hfind
    rcases refuseCredits_reports hrefuse with ⟨w', wallet', hfind', hreported, -⟩ | ⟨hnone, -, -⟩
    · rw [hwallets, hfind] at hfind'
      obtain ⟨rfl, rfl⟩ := Prod.mk.inj (Option.some.inj hfind')
      have hlive := hcoherent.live
      rw [hreported, hleft] at hlive
      rw [Option.some.inj hlive]
      unfold Db.available
      rw [hfind]
    · rw [hwallets, hfind] at hnone
      cases hnone
  · intro htrue
    have hlive : reply.balance = some (db'.available payload.user env.now) := by
      rw [hleft]
      unfold Db.available
      rcases refuseCredits_reports hrefuse with ⟨w, wallet, hfind, hreported, -⟩ | ⟨hnone, hreported, -⟩
      · rw [hwallets] at hfind
        rw [hreported, hfind, htrue w wallet hfind]
      · rw [hwallets] at hnone
        rw [hreported, hnone]
    exact
      { live := hlive
        short := hleft ▸ hshort
        same := ⟨answer, hanswer, by rw [hlive, hbalance]⟩ }

end Refused

/-! ## A row that was true and one that was not -/

/-- The seam of a host that knows of no tombstones and makes every row it is asked for. -/
def openSeam : UserSeam :=
  { inactive := fun _ => false
    ensureShadowUser := fun _ => true }

/-- Fifty credits, asked for with what names the user. -/
def askFifty (user : UserId) : MoneyPayload :=
  { user
    identity := true
    credits := 50
    idempotencyKey := "invoice:50" }

/-- The wallet once a sweep has been there: its row says the thirty credits that are left. -/
def sweptWallet : Db := staleWallet.swept (Env.plain 1) 0

theorem sweptWallet_lotsOwned : sweptWallet.LotsOwned := by
  intro k lot hk
  unfold sweptWallet at hk
  rw [swept_lot] at hk
  obtain ⟨old, hold, rfl⟩ := Option.map_eq_some_iff.mp hk
  have hwallet : old.wallet = 0 := by
    obtain ⟨wallet, hget⟩ := staleWallet_lotsOwned k old hold
    have hlast := Table.get?_lt_next hget
    exact Nat.lt_one_iff.mp hlast
  rw [CreditLot.sweptAt_wallet, hwallet]
  exact ⟨_, rfl⟩

/-- Fifty credits are refused with the balance of thirty that the row says. -/
theorem refusal_coherent_iff_swept : ∃ reply db',
    MoneyFunction.debit.call (Env.plain 1) openSeam (askFifty 1) sweptWallet = .ok (reply, db') ∧
      reply.balance = some 30 ∧ reply.Coherent (Env.plain 1) openSeam (askFifty 1) db' := by
  refine ⟨_, _, rfl, rfl, (refusal_coherent_iff (f := .debit) sweptWallet_lotsOwned rfl rfl).mpr ?_⟩
  intro w wallet hfind
  have hrow : (w, wallet) = (0, { user := some 1, balance := 30 }) := Option.some.inj hfind.symm
  obtain ⟨rfl, rfl⟩ := Prod.mk.inj hrow
  decide +kernel

/-- **The row still counts the lot that has expired**: fifty credits are refused with a balance of
a hundred and thirty, and `billing.can_afford` reports thirty. -/
theorem refusal_reports_stale_balance : staleWallet.LotsOwned ∧ ∃ reply db',
    MoneyFunction.debit.call (Env.plain 1) openSeam (askFifty 1) staleWallet = .ok (reply, db') ∧
      reply.reason = some "insufficient_credits" ∧ reply.balance = some 130 ∧
      db'.available 1 (Env.plain 1).now = 30 ∧
      (∃ answer, billingCanAfford (Env.plain 1) openSeam 1 true 50 db' = .ok (.ok answer, db') ∧
        answer.balance = 30) ∧
      ¬ reply.Coherent (Env.plain 1) openSeam (askFifty 1) db' := by
  refine ⟨staleWallet_lotsOwned, _, _, rfl, rfl, rfl, by decide +kernel, ⟨_, rfl, rfl⟩, fun h => ?_⟩
  exact absurd h.live (by decide +kernel)

end StapelBilling
