import StapelBilling.ReleaseRetries

/-! # The hold worker between other calls

The hold worker lists the holds past their deadline once and then releases them one by
one, each in a transaction of its own.  In between, a listed hold can be given up and
taken up again under its key, on the same row and with a deadline of its own; the worker
does not look at the deadline again, and gives up a reservation that is not overdue.
-/
namespace StapelBilling
open Store

variable {env : Env} {w : ℕ} {db db' : Db}

/-! ## The worker's steps -/

/-- The worker's turn on one hold: what committed since its last step, and the
environment its release meets. -/
structure SweepTurn where
  hold : ℕ
  others : List (Env × WalletCall)
  env : Env

/-- What the worker does to a hold it listed. -/
def expireHold (h : ℕ) : WalletCall := .release { hold := h, expired := true }

/-- Every call of these turns, in order. -/
def sweepCalls (turns : List SweepTurn) : List (Env × WalletCall) :=
  turns.flatMap fun turn => turn.others ++ [(turn.env, expireHold turn.hold)]

/-- The database a turn's release meets, after the turns `earlier`. -/
def SweepTurn.met (turn : SweepTurn) (earlier : List SweepTurn) (db : Db) : Db :=
  runCalls (sweepCalls earlier ++ turn.others) db

/-- A hold that is open at `now` and not overdue. -/
def Db.Current (h : ℕ) (now : Time) (db : Db) : Prop :=
  ∃ held, db.holds.get? h = some held ∧ held.status = .held ∧ aliveAt now held.expiresAt

/-- The deadline of a hold is missing or ahead. -/
def Db.NotOverdue (h : ℕ) (now : Time) (db : Db) : Prop :=
  ∃ held, db.holds.get? h = some held ∧ aliveAt now held.expiresAt

/-! ## Deadlines -/

/-- **Only arming moves a deadline or opens a hold.** -/
theorem Step.deadline_kept {m : Move} (h : Step env w m db db') (hm : ¬ m.IsArm) {k : ℕ}
    {held : CreditHold} (hk : db.holds.get? k = some held) :
    ∃ held', db'.holds.get? k = some held' ∧ held'.expiresAt = held.expiresAt ∧
      (held'.status = .held → held.status = .held) := by
  by_cases hnamed : m.hold? = some k
  · have hmodify : ∀ f : CreditHold → CreditHold, db'.holds = db.holds.modify k f →
        (f held).expiresAt = held.expiresAt →
        ((f held).status = .held → held.status = .held) →
        ∃ held', db'.holds.get? k = some held' ∧ held'.expiresAt = held.expiresAt ∧
          (held'.status = .held → held.status = .held) := by
      intro f hrows hdeadline hstatus
      refine ⟨f held, ?_, hdeadline, hstatus⟩
      rw [hrows, Table.get?_modify_self, hk]
      rfl
    cases h with
    | refund _ _ _ _ _ _ =>
      obtain rfl := Option.some.inj hnamed
      exact hmodify _ (refundAllocation_holds env w _ _ _ _ _) rfl fun hs => hs
    | overdraw _ _ _ _ =>
      obtain rfl := Option.some.inj hnamed
      exact hmodify _ (allocateMore_holds env _ _ _) rfl fun hs => hs
    | bill _ _ _ _ =>
      obtain rfl := Option.some.inj hnamed
      exact hmodify _ (billHold_holds env w _ _ _ _) rfl fun hs => by cases hs
    | waive _ _ _ _ =>
      obtain rfl := Option.some.inj hnamed
      exact hmodify _ (meterOnlyCapture_holds env w _ _ _ _) rfl fun hs => by cases hs
    | settle _ _ _ hs =>
      obtain rfl := Option.some.inj hnamed
      exact hmodify _ (settleHold_holds env _ _ _) rfl fun hopen => absurd hopen hs.2.ne_held
    | _ => cases hnamed
  · exact ⟨held, by rw [h.holds_frame hm hnamed, hk], rfl, fun hs => hs⟩

/-- **What a call does to a hold's deadline**: nothing, or `hold` under its key takes the
returned hold up again with a deadline of its own. -/
theorem exec_deadline {c : WalletCall} (h : c.exec env db = .ok db') {k : ℕ} {held : CreditHold}
    (hk : db.holds.get? k = some held) : ∃ held', db'.holds.get? k = some held' ∧
      (held'.expiresAt = held.expiresAt ∧ (held'.status = .held → held.status = .held) ∨
        held.status.GivenBack ∧ held'.status = .held ∧ ∃ args, c = .hold args ∧
          args.idempotencyKey = held.idempotencyKey ∧
          held'.expiresAt = holdDeadline env args.expiresAt) := by
  by_cases hhold : ∃ args, c = .hold args
  · obtain ⟨args, rfl⟩ := hhold
    obtain ⟨j, hok⟩ := map_snd_ok h
    rcases hold_holds hok with hsame | ⟨new, hrows, -⟩ | ⟨old, hold, hkey, hback, f, hf, hrows⟩
    · exact ⟨held, by rw [hsame, hk], Or.inl ⟨rfl, fun hs => hs⟩⟩
    · exact ⟨held, by rw [hrows, Table.get?_insert_of_some _ hk], Or.inl ⟨rfl, fun hs => hs⟩⟩
    · by_cases hkj : k = j
      · subst hkj
        obtain rfl := Option.some.inj (hk.symm.trans hold)
        refine ⟨f held, ?_, Or.inr ⟨hback, (hf held).1, args, rfl, hkey.symm, (hf held).2⟩⟩
        rw [hrows, Table.get?_modify_self, hk]
        rfl
      · refine ⟨held, ?_, Or.inl ⟨rfl, fun hs => hs⟩⟩
        rw [hrows, Table.get?_modify_of_ne _ _ hkj, hk]
  · obtain ⟨held', hk', hsame⟩ := Moves.invariant (I := fun d => ∃ held', d.holds.get? k = some held' ∧
        held'.expiresAt = held.expiresAt ∧ (held'.status = .held → held.status = .held))
      (fun m d d' hm hI hs => by
        obtain ⟨a, ha, hdeadline, hstatus⟩ := hI
        obtain ⟨b, hb, hdeadline', hstatus'⟩ :=
          hs.deadline_kept (WalletCall.Allows.not_isArm hm hhold) ha
        exact ⟨b, hb, hdeadline'.trans hdeadline, fun hopen => hstatus (hstatus' hopen)⟩)
      (exec_moves h) ⟨held, hk, rfl, fun hs => hs⟩
    exact ⟨held', hk', Or.inl hsame⟩

/-! ## Taken up again -/

/-- A `hold` under its key takes the resolved hold up again in this run, with a deadline
that is not due at `now`, and nothing resolves it afterwards. -/
def TakenUpCurrent (now : Time) (h : ℕ) (calls : List (Env × WalletCall)) (db : Db) : Prop :=
  ∃ earlier env args later held,
    calls = earlier ++ (env, .hold args) :: later ∧
    (runCalls earlier db).holds.get? h = some held ∧ held.status ≠ .held ∧
    args.idempotencyKey = held.idempotencyKey ∧ aliveAt now (holdDeadline env args.expiresAt) ∧
    ∀ n, (runCalls (later.take n) (Store.commit (WalletCall.exec env (.hold args))
      (runCalls earlier db))).IsHeld h

/-- A hold's row stays. -/
theorem runCalls_hold_kept {h : ℕ} {held : CreditHold} (calls : List (Env × WalletCall))
    (hk : db.holds.get? h = some held) :
    ∃ held', (runCalls calls db).holds.get? h = some held' := by
  refine Store.run_invariant (I := fun d : Db => ∃ held', d.holds.get? h = some held')
    (fun c _ d d' hd hexec => ?_) ⟨held, hk⟩
  obtain ⟨a, ha⟩ := hd
  obtain ⟨b, hb, -⟩ := exec_deadline hexec ha
  exact ⟨b, hb⟩

/-- A hold that stays open keeps its deadline. -/
theorem Db.Current.stays {h : ℕ} {now : Time} {calls : List (Env × WalletCall)}
    (hcurrent : db.Current h now) (hopen : ∀ n, (runCalls (calls.take n) db).IsHeld h) :
    (runCalls calls db).Current h now := by
  induction calls generalizing db with
  | nil => exact hcurrent
  | cons c calls ih =>
    refine @ih (Store.commit (c.2.exec c.1) db) ?_ fun n => hopen (n + 1)
    have hnext : (Store.commit (c.2.exec c.1) db).IsHeld h := hopen 1
    cases hexec : c.2.exec c.1 db with
    | error e =>
      rw [Store.commit_error hexec]
      exact hcurrent
    | ok d =>
      rw [Store.commit_ok hexec] at hnext ⊢
      obtain ⟨held, hk, hstatus, halive⟩ := hcurrent
      obtain ⟨held', hk', hcase⟩ := exec_deadline hexec hk
      obtain ⟨held'', hk'', hstatus'⟩ := hnext
      obtain rfl := Option.some.inj (hk'.symm.trans hk'')
      rcases hcase with ⟨hdeadline, -⟩ | ⟨hback, -⟩
      · exact ⟨held', hk', hstatus', hdeadline ▸ halive⟩
      · exact absurd hstatus hback.ne_held

/-- **An overdue hold is current after a run exactly when it was taken up again** with a
deadline ahead. -/
theorem current_iff_takenUp {h : ℕ} {held : CreditHold} {now : Time}
    (calls : List (Env × WalletCall)) (hk : db.holds.get? h = some held)
    (hdue : dueAt now held.expiresAt) :
    (runCalls calls db).Current h now ↔ TakenUpCurrent now h calls db := by
  constructor
  · intro hend
    have hstart : ¬ db.Current h now := by
      rintro ⟨held', hk', -, halive⟩
      obtain rfl := Option.some.inj (hk.symm.trans hk')
      exact not_aliveAt_iff.mpr hdue halive
    obtain ⟨earlier, ⟨env, c⟩, later, hcalls, hbefore, hafter⟩ :=
      Store.run_last_switch hstart hend
    obtain ⟨held₁, hk₁⟩ := runCalls_hold_kept earlier hk
    have hswitched : (Store.commit (c.exec env) (runCalls earlier db)).Current h now := hafter 0
    cases hexec : c.exec env (runCalls earlier db) with
    | error e =>
      rw [Store.commit_error hexec] at hswitched
      exact absurd hswitched hbefore
    | ok d =>
      rw [Store.commit_ok hexec] at hswitched
      obtain ⟨held₂, hk₂, hopen, halive⟩ := hswitched
      obtain ⟨held₃, hk₃, hcase⟩ := exec_deadline hexec hk₁
      obtain rfl := Option.some.inj (hk₂.symm.trans hk₃)
      rcases hcase with ⟨hdeadline, hstatus⟩ | ⟨hback, -, args, rfl, hkey, hdeadline⟩
      · exact absurd ⟨held₁, hk₁, hstatus hopen, hdeadline ▸ halive⟩ hbefore
      · refine ⟨earlier, env, args, later, held₁, hcalls, hk₁, hback.ne_held, hkey,
          hdeadline ▸ halive, fun n => ?_⟩
        obtain ⟨held₄, hk₄, hopen₄, -⟩ := hafter n
        exact ⟨held₄, hk₄, hopen₄⟩
  · rintro ⟨earlier, env, args, later, held₁, rfl, hk₁, hstatus, -, halive, hafter⟩
    have hrun : runCalls (earlier ++ (env, .hold args) :: later) db =
        runCalls later (Store.commit (WalletCall.exec env (.hold args)) (runCalls earlier db)) :=
      Store.run_append _ _ _
    rw [hrun]
    refine Db.Current.stays ?_ hafter
    have hopened : (Store.commit (WalletCall.exec env (.hold args))
      (runCalls earlier db)).IsHeld h := hafter 0
    cases hexec : WalletCall.exec env (.hold args) (runCalls earlier db) with
    | error e =>
      rw [Store.commit_error hexec] at hopened
      obtain ⟨held₂, hk₂, hopen⟩ := hopened
      obtain rfl := Option.some.inj (hk₁.symm.trans hk₂)
      exact absurd hopen hstatus
    | ok d =>
      rw [Store.commit_ok hexec] at hopened ⊢
      obtain ⟨held₂, hk₂, hopen⟩ := hopened
      obtain ⟨held₃, hk₃, hcase⟩ := exec_deadline hexec hk₁
      obtain rfl := Option.some.inj (hk₂.symm.trans hk₃)
      rcases hcase with ⟨-, hwas⟩ | ⟨-, -, args', hargs, -, hdeadline⟩
      · exact absurd (hwas hopen) hstatus
      · obtain rfl := WalletCall.hold.inj hargs
        exact ⟨held₂, hk₂, hopen, hdeadline ▸ halive⟩

/-! ## The whole sweep -/

/-- Only holds that are past their deadline are listed. -/
theorem mem_staleHolds {now : Time} {h : ℕ} (hh : h ∈ db.staleHolds now) :
    ∃ held, db.holds.get? h = some held ∧ held.Stale now := by
  obtain ⟨r, hr, rfl⟩ := List.mem_map.mp hh
  exact ⟨r.2, Table.mem_select.mp (mem_orderBy.mp hr)⟩

variable (env) in
/-- A release of a hold that is there does not fail. -/
theorem release_ok (hr : db.Referenced) (args : ReleaseArgs) {held : CreditHold}
    (hk : db.holds.get? args.hold = some held) : ∃ db', release env args db = .ok db' := by
  obtain ⟨wallet, hwallet⟩ := hr.holds _ held hk
  simp only [release, holdWallet, hk, releaseLocked, hwallet]
  split <;> exact ⟨_, rfl⟩

/-- **The worker on its own** is the sweep in whose turns nothing else commits. -/
theorem expireHolds_eq_run (hr : db.Referenced) : expireHolds env db =
    runCalls (sweepCalls ((db.staleHolds env.now).map fun hold => { hold, others := [], env }))
      db := by
  have hthere : ∀ h ∈ db.staleHolds env.now, ∃ held, db.holds.get? h = some held := by
    intro h hh
    obtain ⟨held, hk, -⟩ := mem_staleHolds hh
    exact ⟨held, hk⟩
  unfold expireHolds
  generalize db.staleHolds env.now = holds at hthere
  induction holds generalizing db with
  | nil => rfl
  | cons h holds ih =>
    obtain ⟨held, hk⟩ := hthere h List.mem_cons_self
    obtain ⟨db', hok⟩ := release_ok env hr { hold := h, expired := true } hk
    have hexec : (expireHold h).exec env db = .ok db' := hok
    have hkept : ∀ j ∈ holds, ∃ held, db'.holds.get? j = some held := by
      intro j hj
      obtain ⟨a, ha⟩ := hthere j (List.mem_cons_of_mem _ hj)
      obtain ⟨b, hb, -⟩ := exec_deadline hexec ha
      exact ⟨b, hb⟩
    have hrest := @ih db' (exec_referenced hr hexec) hkept
    simp only [releaseStale, hok]
    rw [hrest]
    have hrun : runCalls (sweepCalls ((h :: holds).map fun hold =>
        { hold, others := [], env })) db = runCalls (sweepCalls (holds.map fun hold =>
          { hold, others := [], env })) (Store.commit ((expireHold h).exec env) db) := rfl
    rw [hrun, Store.commit_ok hexec]

/-- **When the hold worker expires overdue holds only.**  In every run from a database
without wallets: the worker lists the holds past their deadline, in whatever order the
database answers, and releases them one by one, with any wallet operations in between, under
a clock that does not go back.  A release whose hold has no deadline or one ahead changes no
lot, no balance and no hold's status, exactly when no listed hold was taken up again since
with a deadline that is still ahead, and left open. -/
theorem sweep_expires_overdue_iff (hbare : db.Bare) {before : List (Env × LifecycleCall)}
    {listing : Time} {listed : List ℕ} {turns : List SweepTurn}
    (horder : listed.Perm ((runLifecycle before db).staleHolds listing))
    (hlisted : turns.map SweepTurn.hold <+: listed)
    (hclock : ∀ turn ∈ turns, listing ≤ turn.env.now) :
    (∀ earlier turn later, turns = earlier ++ turn :: later →
      (turn.met earlier (runLifecycle before db)).NotOverdue turn.hold turn.env.now →
      (turn.met earlier (runLifecycle before db)).MoneyKept
        (Store.commit ((expireHold turn.hold).exec turn.env)
          (turn.met earlier (runLifecycle before db)))) ↔
      ∀ earlier turn later, turns = earlier ++ turn :: later →
        ¬ TakenUpCurrent turn.env.now turn.hold (sweepCalls earlier ++ turn.others)
          (runLifecycle before db) := by
  have hr : (runLifecycle before db).Referenced :=
    runLifecycle_referenced before hbare.holdsSound.referenced
  refine forall_congr' fun earlier => forall_congr' fun turn => forall_congr' fun later =>
    imp_congr_right fun hturns => ?_
  have hmem : turn ∈ turns := hturns ▸ List.mem_append_right _ List.mem_cons_self
  obtain ⟨held, hk, -, hdue⟩ :=
    mem_staleHolds (horder.subset (hlisted.subset (List.mem_map.mpr ⟨turn, hmem, rfl⟩)))
  have hmet : (turn.met earlier (runLifecycle before db)).Referenced :=
    runCalls_referenced _ hr
  have hkept := @release_moneyKept_iff turn.env _ { hold := turn.hold, expired := true } hmet
  rw [← current_iff_takenUp _ hk (dueAt_of_le (hclock turn hmem) hdue)]
  constructor
  · rintro hsafe ⟨held', hk', hstatus, halive⟩
    exact hkept.mp (hsafe ⟨held', hk', halive⟩) ⟨held', hk', hstatus⟩
  · rintro hnot ⟨held', hk', halive⟩
    refine hkept.mpr ?_
    rintro ⟨held'', hk'', hstatus⟩
    obtain rfl := Option.some.inj (hk'.symm.trans hk'')
    exact hnot ⟨held', hk', hstatus, halive⟩

/-- Two reservations that nobody came back for. -/
def abandonedJobs : List (Env × LifecycleCall) :=
  [(Env.plain 0, .wallet (.credit
      { user := 7
        credits := 100
        type := .creditPurchase
        source := .purchase })),
    (Env.plain 10, .wallet (.hold
      { user := 7
        credits := 30
        type := .aiCharge
        idempotencyKey := "first"
        expiresAt := some 20 })),
    (Env.plain 11, .wallet (.hold
      { user := 7
        credits := 40
        type := .aiCharge
        idempotencyKey := "second"
        expiresAt := some 20 }))]

/-- The worker begins with the younger job. -/
def secondJobTurn : SweepTurn := { hold := 1, others := [], env := Env.plain 30 }

/-- While the worker is at it, the older job gives up and starts again. -/
def firstJobTurn : SweepTurn :=
  { hold := 0
    others :=
      [(Env.plain 31, .release { hold := 0 }),
        (Env.plain 31, .hold
          { user := 7
            credits := 30
            type := .aiCharge
            idempotencyKey := "first"
            expiresAt := some 90 })]
    env := Env.plain 32 }

theorem sweep_expires_overdue_iff_restart :
    (∀ earlier turn later, [secondJobTurn, firstJobTurn] = earlier ++ turn :: later →
      (turn.met earlier (runLifecycle abandonedJobs Db.empty)).NotOverdue turn.hold turn.env.now →
      (turn.met earlier (runLifecycle abandonedJobs Db.empty)).MoneyKept
        (Store.commit ((expireHold turn.hold).exec turn.env)
          (turn.met earlier (runLifecycle abandonedJobs Db.empty)))) ↔
      ∀ earlier turn later, [secondJobTurn, firstJobTurn] = earlier ++ turn :: later →
        ¬ TakenUpCurrent turn.env.now turn.hold (sweepCalls earlier ++ turn.others)
          (runLifecycle abandonedJobs Db.empty) := by
  have hlisted : [secondJobTurn, firstJobTurn].map SweepTurn.hold <+:
      (runLifecycle abandonedJobs Db.empty).staleHolds 30 := ⟨[], by decide +kernel⟩
  refine sweep_expires_overdue_iff ⟨rfl, rfl, rfl, rfl, rfl⟩ (List.Perm.refl _) hlisted ?_
  simp [secondJobTurn, firstJobTurn, Env.plain]

/-- The restarted job's reservation is expired before its deadline. -/
theorem current_hold_expired : ∃ met swept,
    met = firstJobTurn.met [secondJobTurn] (runLifecycle abandonedJobs Db.empty) ∧
    (runLifecycle abandonedJobs Db.empty).staleHolds 30 = [1, 0] ∧
    (expireHold 0).exec (Env.plain 32) met = .ok swept ∧
    ((met.holds.get? 0).map fun held => (held.status, held.expiresAt)) =
      some (.held, some 90) ∧
    (met.wallets.get? 0).map Wallet.balance = some 70 ∧
    (swept.holds.get? 0).map CreditHold.status = some .expired ∧
    (swept.wallets.get? 0).map Wallet.balance = some 100 := by
  refine ⟨_, _, rfl, ?_, rfl, ?_, ?_, ?_, ?_⟩
  all_goals decide +kernel

end StapelBilling
