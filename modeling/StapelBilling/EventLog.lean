import StapelBilling.HandlerRegistry
import StapelBilling.Store.Leases

/-! # The event log under concurrency

Deliveries, the provider's retries, duplicates and replays of the same events run at the same
time.  Each is an **attempt**, which goes through these steps, and between any two of them the
other attempts and the rest of the service may commit theirs:

1. the event's row is looked up, or made: a commit of its own;
2. the row's lock is taken, unless the row is found processed;
3. the handler claims a provider object, which waits for a claim that is not committed yet;
4. the handler's effects, the claim and the processed mark commit together;
5. or the attempt fails, everything since the lock is rolled back, and the error is written
   over the row by a save of its own.

An attempt may stop anywhere.  Read as leases (`Store.Leases`), once on the rows of the log and
once on the provider's objects, such a system does nothing twice.

* `Intake.Step`: one step of one attempt.
* `Intake.Step.rows`, `Intake.Step.objects`: the two readings.
* `Intake.post_is_a_run`, `Intake.replay_is_a_run`: an attempt that nobody interrupts does what
  the endpoint does, and what a replay does.
* `webhook_effects_once`: what holds of every interleaving.
-/
namespace StapelBilling
open Store

/-! ## Attempts -/

/-- How an attempt comes about: the endpoint is handed a verified event, or a replay has listed
a row. -/
inductive Attempt
  | delivery (event : StripeEvent)
  | replay (row : ℕ)

/-- The payload an attempt brings, if it brings one. -/
def Attempt.event : Attempt → Option StripeEvent
  | delivery event => some event
  | replay _ => none

/-- How far an attempt has come. -/
inductive Progress
  | started
  | logged (row : ℕ)
  | working (row : ℕ) (claim : Option ObjectKey)
  | failed (row : ℕ) (e : WebhookError)
  | answered (outcome : EventOutcome)
  | refused (e : WebhookError)
  | stopped

/-- The committed database and log, the attempts, and what was committed so far: each row with
the object its handler claimed. -/
structure Intake where
  inbox : Inbox
  progress : ℕ → Progress := fun _ => .started
  committed : List (ℕ × Option ObjectKey) := []

/-- The row whose lock an attempt has. -/
def Progress.row : Progress → Option ℕ
  | working row _ => some row
  | _ => none

/-- The row an attempt is at, before the lock or under it. -/
def Progress.atRow : Progress → Option ℕ
  | logged row => some row
  | working row _ => some row
  | _ => none

/-- The object an attempt has claimed and not committed. -/
def Progress.claim : Progress → Option ObjectKey
  | working _ claim => claim
  | _ => none

namespace Intake

/-- The state once attempt `i` has come further. -/
def moves (s : Intake) (i : ℕ) (progress : Progress) : Intake :=
  { s with progress := Function.update s.progress i progress }

/-- **One step of one attempt.**  The environment of a step is whatever it reads. -/
inductive Step (hooks : WebhookSettings) (attempts : ℕ → Attempt) (s : Intake) : Intake → Prop
  | log (i : ℕ) (env : Env) (event : StripeEvent) (id : String)
      (hstart : s.progress i = .started) (hattempt : attempts i = .delivery event)
      (hid : nonempty event.id = some id) :
      Step hooks attempts s
        { s.moves i (.logged (s.inbox.logEvent env id event).1) with
          inbox := (s.inbox.logEvent env id event).2 }
  | select (i row : ℕ) (hstart : s.progress i = .started) (hattempt : attempts i = .replay row) :
      Step hooks attempts s (s.moves i (.logged row))
  /-- The row is found processed, before the lock or under it. -/
  | skip (i row : ℕ) (hlogged : s.progress i = .logged row) (hdone : s.inbox.Processed row) :
      Step hooks attempts s (s.moves i (.answered .duplicate))
  | lock (i row : ℕ) (hlogged : s.progress i = .logged row) (hundone : ¬ s.inbox.Processed row)
      (hfree : ∀ j, (s.progress j).row ≠ some row) :
      Step hooks attempts s (s.moves i (.working row none))
  /-- A claim that is committed is refused, one that is not committed yet is waited for. -/
  | claim (i row : ℕ) (key : ObjectKey) (hworking : s.progress i = .working row none)
      (hunclaimed : ¬ s.inbox.db.Claimed key.1 key.2)
      (hfree : ∀ j, (s.progress j).claim ≠ some key) :
      Step hooks attempts s (s.moves i (.working row (some key)))
  | commit (i row : ℕ) (claim : Option ObjectKey) (env : Env) (locked : StripeWebhookEvent)
      (stale : Bool) (db : Db) (hworking : s.progress i = .working row claim)
      (hlocked : s.inbox.log.get? row = some locked)
      (hrun : hooks.dispatch env locked.eventType ((attempts i).event.getD locked.payload)
        s.inbox.db = .ok (stale, db))
      (hclaims : ∀ key : ObjectKey, db.Claimed key.1 key.2 ↔
        s.inbox.db.Claimed key.1 key.2 ∨ claim = some key) :
      Step hooks attempts s
        { s.moves i (.answered (if stale then .ignoredStale else .processed)) with
          inbox :=
            { db
              log := Inbox.mark env row stale s.inbox.log }
          committed := s.committed ++ [(row, claim)] }
  /-- Whatever was written since the lock is rolled back. -/
  | fail (i row : ℕ) (claim : Option ObjectKey) (e : WebhookError)
      (hworking : s.progress i = .working row claim) :
      Step hooks attempts s (s.moves i (.failed row e))
  | unlocked (i row : ℕ) (e : WebhookError) (hlogged : s.progress i = .logged row) :
      Step hooks attempts s (s.moves i (.failed row e))
  | report (i row : ℕ) (e : WebhookError) (hfailed : s.progress i = .failed row e) :
      Step hooks attempts s
        { s.moves i (.refused e) with inbox := s.inbox.recordError row e }
  /-- The process dies. -/
  | stop (i : ℕ) : Step hooks attempts s (s.moves i .stopped)
  /-- The rest of the service commits, which grants nothing for a provider's object and claims
  none. -/
  | other (db : Db)
      (hclaims : ∀ key : ObjectKey, db.Claimed key.1 key.2 ↔ s.inbox.db.Claimed key.1 key.2)
      (hgrants : ∀ key, db.grantsFor key = s.inbox.db.grantsFor key)
      (hnames : ∀ invoice, db.grantsNaming invoice = s.inbox.db.grantsNaming invoice) :
      Step hooks attempts s { s with inbox := { s.inbox with db } }

/-- Any interleaving of steps. -/
abbrev Runs (hooks : WebhookSettings) (attempts : ℕ → Attempt) : Intake → Intake → Prop :=
  Relation.ReflTransGen (Step hooks attempts)

/-! ## The two readings -/

/-- The rows of the log, as leases. -/
def rows (s : Intake) : Leases ℕ ℕ where
  done := s.inbox.Processed
  lease := fun i => (s.progress i).row
  finished := s.committed.map Prod.fst

/-- The provider's objects, as leases. -/
def objects (s : Intake) : Leases ℕ ObjectKey where
  done := fun key => s.inbox.db.Claimed key.1 key.2
  lease := fun i => (s.progress i).claim
  finished := s.committed.filterMap Prod.snd

section Readings
variable {hooks : WebhookSettings} {attempts : ℕ → Attempt} {s s' : Intake}

/-- What a party has, once one of them has moved. -/
theorem read_update {α : Type} (read : Progress → α) (i : ℕ) (progress : Progress) :
    (fun j => read (Function.update s.progress i progress j)) =
      Function.update (fun j => read (s.progress j)) i (read progress) := by
  funext j
  by_cases hj : j = i
  · rw [hj, Function.update_self, Function.update_self]
  · rw [Function.update_of_ne hj, Function.update_of_ne hj]

/-- Only a run of a handler processes a row. -/
theorem processed_mark {env : Env} {row : ℕ} {stale : Bool} {locked : StripeWebhookEvent} {db : Db}
    (hlocked : s.inbox.log.get? row = some locked) (k : ℕ) :
    Inbox.Processed { db, log := Inbox.mark env row stale s.inbox.log } k ↔
      s.inbox.Processed k ∨ k = row := by
  unfold Inbox.Processed Inbox.mark
  simp only [Table.get?_modify]
  by_cases hk : k = row
  · subst hk
    simp [hlocked]
  · simp [hk]

theorem processed_recordError (row : ℕ) (e : WebhookError) (k : ℕ) :
    (s.inbox.recordError row e).Processed k ↔ s.inbox.Processed k := by
  unfold Inbox.Processed Inbox.recordError
  simp only [Table.get?_modify]
  by_cases hk : k = row
  · subst hk
    cases hrow : s.inbox.log.get? k with
    | none => simp
    | some locked => simp
  · simp [hk]

theorem processed_logEvent (env : Env) (id : String) (event : StripeEvent) (k : ℕ) :
    (s.inbox.logEvent env id event).2.Processed k ↔ s.inbox.Processed k := by
  unfold Inbox.logEvent
  split
  · exact Iff.rfl
  · unfold Inbox.Processed
    dsimp only
    by_cases hk : k = s.inbox.log.next
    · subst hk
      simp [Table.get?_next]
    · rw [Table.get?_insert_of_ne _ hk]

/-- The log's reading of a step that only moves an attempt on. -/
theorem rows_drop {i : ℕ} {progress : Progress} {inbox : Inbox} (hprogress : progress.row = none)
    (hdone : ∀ k, inbox.Processed k ↔ s.inbox.Processed k) :
    s.rows.Step (rows { s.moves i progress with inbox }) := by
  have heq : rows { s.moves i progress with inbox } =
      { s.rows with lease := Function.update s.rows.lease i none } := by
    unfold rows moves
    rw [show inbox.Processed = s.inbox.Processed from funext fun k => propext (hdone k),
      read_update Progress.row, hprogress]
  rw [heq]
  exact .drop i

theorem objects_drop {i : ℕ} {progress : Progress} {inbox : Inbox} (hprogress : progress.claim = none)
    (hdb : inbox.db = s.inbox.db) : s.objects.Step (objects { s.moves i progress with inbox }) := by
  have heq : objects { s.moves i progress with inbox } =
      { s.objects with lease := Function.update s.objects.lease i none } := by
    unfold objects moves
    rw [hdb, read_update Progress.claim, hprogress]
  rw [heq]
  exact .drop i

theorem logEvent_db (inbox : Inbox) (env : Env) (id : String) (event : StripeEvent) :
    (inbox.logEvent env id event).2.db = inbox.db := by
  unfold Inbox.logEvent
  split <;> rfl

/-- **A step takes, finishes or drops the lease of a row**, or leaves the rows alone. -/
theorem Step.rows (h : Step hooks attempts s s') : s.rows.Step s'.rows ∨ s'.rows = s.rows := by
  cases h with
  | log i env event id hstart hattempt hid => exact Or.inl (rows_drop rfl (processed_logEvent env id event))
  | select i row hstart hattempt | skip i row hlogged hdone | fail i row claim e hworking
  | unlocked i row e hlogged | stop i => exact Or.inl (rows_drop rfl fun _ => Iff.rfl)
  | report i row e hfailed => exact Or.inl (rows_drop rfl (processed_recordError row e))
  | lock i row hlogged hundone hfree =>
    left
    have heq : (s.moves i (.working row none)).rows =
        { s.rows with lease := Function.update s.rows.lease i (some row) } := by
      unfold Intake.rows moves
      rw [read_update Progress.row]
      rfl
    rw [heq]
    refine .take i row ?_ hundone hfree
    show (s.progress i).row = none
    rw [hlogged]
    rfl
  | claim i row key hworking hunclaimed hfree =>
    right
    have hsame : (fun j => (s.progress j).row) i = some row := by
      show (s.progress i).row = some row
      rw [hworking]
      rfl
    unfold Intake.rows moves
    rw [read_update Progress.row]
    show Leases.mk _ (Function.update _ i (some row)) _ = _
    rw [← hsame, Function.update_eq_self]
  | commit i row claim env locked stale db hworking hlocked hrun hclaims =>
    left
    have hlease : s.rows.lease i = some row := by
      show (s.progress i).row = some row
      rw [hworking]
      rfl
    have heq : Intake.rows
        { s.moves i (.answered (if stale then .ignoredStale else .processed)) with
          inbox :=
            { db
              log := Inbox.mark env row stale s.inbox.log }
          committed := s.committed ++ [(row, claim)] } =
        { done := fun k => s.rows.done k ∨ k = row
          lease := Function.update s.rows.lease i none
          finished := s.rows.finished ++ [row] } := by
      unfold Intake.rows moves
      rw [read_update Progress.row, List.map_append]
      congr
      exact funext fun k => propext (processed_mark hlocked k)
    rw [heq]
    exact .finish i row hlease
  | other db hclaims hgrants hnames => exact Or.inr rfl

/-- **A step takes, finishes or drops the lease of an object**, or leaves the objects alone. -/
theorem Step.objects (h : Step hooks attempts s s') :
    s.objects.Step s'.objects ∨ s'.objects = s.objects := by
  cases h with
  | log i env event id hstart hattempt hid =>
    exact Or.inl (objects_drop rfl (logEvent_db s.inbox env id event))
  | select i row hstart hattempt | skip i row hlogged hdone | fail i row claim e hworking
  | unlocked i row e hlogged | stop i | report i row e hfailed | lock i row hlogged hundone hfree =>
    exact Or.inl (objects_drop rfl rfl)
  | claim i row key hworking hunclaimed hfree =>
    left
    -- the lease is taken by the worker that has none
    have heq : (s.moves i (.working row (some key))).objects =
        { s.objects with lease := Function.update s.objects.lease i (some key) } := by
      unfold Intake.objects moves
      rw [read_update Progress.claim]
      rfl
    rw [heq]
    refine .take i key ?_ hunclaimed hfree
    show (s.progress i).claim = none
    rw [hworking]
    rfl
  | commit i row claim env locked stale db hworking hlocked hrun hclaims =>
    left
    have hlease : s.objects.lease i = claim := by
      show (s.progress i).claim = claim
      rw [hworking]
      rfl
    cases claim with
    | none =>
      -- an answer without a claim only drops the lease
      have heq : Intake.objects
          { s.moves i (.answered (if stale then .ignoredStale else .processed)) with
            inbox :=
              { db
                log := Inbox.mark env row stale s.inbox.log }
            committed := s.committed ++ [(row, none)] } =
          { s.objects with lease := Function.update s.objects.lease i none } := by
        unfold Intake.objects moves
        rw [read_update Progress.claim, List.filterMap_append]
        congr
        · exact funext fun key => propext ((hclaims key).trans (by simp))
        · simp
      rw [heq]
      exact .drop i
    | some key =>
      -- with a claim it records the object in the same commit
      have heq : Intake.objects
          { s.moves i (.answered (if stale then .ignoredStale else .processed)) with
            inbox :=
              { db
                log := Inbox.mark env row stale s.inbox.log }
            committed := s.committed ++ [(row, some key)] } =
          { done := fun k => s.objects.done k ∨ k = key
            lease := Function.update s.objects.lease i none
            finished := s.objects.finished ++ [key] } := by
        unfold Intake.objects moves
        rw [read_update Progress.claim, List.filterMap_append]
        congr
        refine funext fun k => propext ((hclaims k).trans (or_congr_right ?_))
        rw [Option.some_inj]
        exact eq_comm
      rw [heq]
      exact .finish i key hlease
  | other db hclaims hgrants hnames =>
    right
    unfold Intake.objects
    congr
    exact funext fun key => propext (hclaims key)

theorem Runs.rows (h : Runs hooks attempts s s') :
    Relation.ReflTransGen Leases.Step s.rows s'.rows := by
  induction h with
  | refl => exact .refl
  | tail _ hstep ih =>
    rcases hstep.rows with hmoved | hstill
    · exact ih.tail hmoved
    · rw [hstill]
      exact ih

theorem Runs.objects (h : Runs hooks attempts s s') :
    Relation.ReflTransGen Leases.Step s.objects s'.objects := by
  induction h with
  | refl => exact .refl
  | tail _ hstep ih =>
    rcases hstep.objects with hmoved | hstill
    · exact ih.tail hmoved
    · rw [hstill]
      exact ih

end Readings

/-! ## One attempt alone -/

section Alone
variable {hooks : WebhookSettings} {attempts : ℕ → Attempt} {s s' : Intake} {i row : ℕ} {env : Env}

/-- Attempt `i` went on alone, as far as `progress`, and left `inbox` behind. -/
structure Alone (hooks : WebhookSettings) (attempts : ℕ → Attempt) (s : Intake) (i : ℕ)
    (inbox : Inbox) (progress : Progress) (s' : Intake) : Prop where
  runs : Runs hooks attempts s s'
  inbox : s'.inbox = inbox
  own : s'.progress i = progress
  others : ∀ j, j ≠ i → s'.progress j = s.progress j

theorem Alone.start (s : Intake) (i : ℕ) :
    Alone hooks attempts s i s.inbox (s.progress i) s :=
  ⟨.refl, rfl, rfl, fun _ _ => rfl⟩

/-- One step further. -/
theorem Alone.tail {inbox inbox' : Inbox} {progress progress' : Progress}
    {committed : List (ℕ × Option ObjectKey)} (h : Alone hooks attempts s i inbox progress s')
    (hstep : Step hooks attempts s'
      { s'.moves i progress' with
        inbox := inbox'
        committed }) :
    Alone hooks attempts s i inbox' progress'
      { s'.moves i progress' with
        inbox := inbox'
        committed } where
  runs := h.runs.tail hstep
  inbox := rfl
  own := Function.update_self ..
  others := fun j hj => (Function.update_of_ne hj _ _).trans (h.others j hj)

/-- Nobody but attempt `i` is at work. -/
def IdleBut (s : Intake) (i : ℕ) : Prop :=
  ∀ j, j ≠ i → (s.progress j).row = none ∧ (s.progress j).claim = none

/-- What attempt `i` does not have yet is free. -/
theorem Alone.free {inbox : Inbox} {progress : Progress}
    (h : Alone hooks attempts s i inbox progress s') (hidle : s.IdleBut i) (j : ℕ) :
    (s'.progress j).row = none ∧ (s'.progress j).claim = none ∨ s'.progress j = progress := by
  by_cases hj : j = i
  · rw [hj]
    exact Or.inr h.own
  · rw [h.others j hj]
    exact Or.inl (hidle j hj)

/-- **A logged event that is applied** is applied in steps. -/
theorem Alone.applied {inbox final : Inbox} {outcome : EventOutcome}
    (h : Alone hooks attempts s i inbox (.logged row) s') (hown : hooks.OwnHandlers)
    (hidle : s.IdleBut i)
    (hok : inbox.applyStoredEvent hooks env row (attempts i).event = .ok (outcome, final)) :
    ∃ t, Alone hooks attempts s i final (.answered outcome) t := by
  obtain rfl := h.inbox
  unfold Inbox.applyStoredEvent at hok
  split at hok
  · cases hok
  · rename_i locked hlocked
    split at hok
    · rename_i hdone
      obtain ⟨rfl, rfl⟩ := Prod.mk.inj (Except.ok.inj hok)
      exact ⟨_, h.tail (.skip i row h.own ⟨locked, hlocked, hdone⟩)⟩
    · rename_i hundone
      split at hok
      · cases hok
      · rename_i stale db hrun
        obtain ⟨rfl, rfl⟩ := Prod.mk.inj (Except.ok.inj hok)
        obtain ⟨claim, hhandles⟩ := dispatch_handles hown hrun
        have hlock : Alone hooks attempts s i s'.inbox (.working row none)
            (s'.moves i (.working row none)) := by
          refine h.tail (.lock i row h.own ?_ fun j => ?_)
          · rintro ⟨locked', hlocked', hdone⟩
            obtain rfl := Option.some.inj (hlocked.symm.trans hlocked')
            exact hundone hdone
          · rcases h.free hidle j with hfree | hj
            · rw [hfree.1]
              exact nofun
            · rw [hj]
              exact nofun
        -- The claim, where there is one, is free: nobody else is at work.
        have hclaim : ∃ t, Alone hooks attempts s i s'.inbox (.working row claim) t := by
          cases claim with
          | none => exact ⟨_, hlock⟩
          | some key =>
            refine ⟨_, hlock.tail (.claim i row key hlock.own (hhandles.free key rfl) fun j => ?_)⟩
            rcases hlock.free hidle j with hfree | hj
            · rw [hfree.2]
              exact nofun
            · rw [hj]
              exact nofun
        obtain ⟨t, hworking⟩ := hclaim
        have hinbox := hworking.inbox
        rw [← hinbox] at hlocked hrun hhandles ⊢
        exact ⟨_, hworking.tail (.commit i row claim env locked stale db hworking.own hlocked hrun
          hhandles.claimed)⟩

/-- **A logged event that fails** leaves its error on the row. -/
theorem Alone.failed {inbox : Inbox} (h : Alone hooks attempts s i inbox (.logged row) s')
    (e : WebhookError) :
    ∃ t, Alone hooks attempts s i (inbox.recordError row e) (.refused e) t := by
  obtain rfl := h.inbox
  have hfailed : Alone hooks attempts s i s'.inbox (.failed row e) (s'.moves i (.failed row e)) :=
    h.tail (.unlocked i row e h.own)
  exact ⟨_, hfailed.tail (.report i row e hfailed.own)⟩

/-- How an attempt ends that the endpoint has answered. -/
inductive EndsAs : WebhookReply → Progress → Prop
  | duplicate : EndsAs .duplicate (.answered .duplicate)
  | ok (outcome : EventOutcome) : EndsAs .ok (.answered outcome)
  | error (e : WebhookError) : EndsAs .error (.refused e)

/-- An attempt that was answered has let go of everything. -/
theorem EndsAs.letGo {reply : WebhookReply} {progress : Progress} (h : EndsAs reply progress) :
    progress.row = none ∧ progress.claim = none := by
  cases h <;> exact ⟨rfl, rfl⟩

/-- **A delivery that nobody interrupts** does what the endpoint does. -/
theorem post_is_a_run (hown : hooks.OwnHandlers) (hidle : s.IdleBut i)
    (hstart : s.progress i = .started) {event : StripeEvent}
    (hattempt : attempts i = .delivery event) {id type : String}
    (hid : nonempty event.id = some id) (htype : nonempty (some event.type) = some type) :
    ∃ progress t, Alone hooks attempts s i (s.inbox.post hooks env (.event event)).2 progress t ∧
      EndsAs (s.inbox.post hooks env (.event event)).1 progress := by
  have hevent : (attempts i).event = some event := by
    rw [hattempt]
    rfl
  have hlogged := (@Alone.start hooks attempts s i).tail
    (.log i env event id hstart hattempt hid)
  simp only [Inbox.post, hid, htype]
  generalize s.inbox.logEvent env id event = logged at hlogged ⊢
  unfold Inbox.process
  split
  · rename_i hdone
    exact ⟨_, _, hlogged.tail (.skip i logged.1 hlogged.own hdone), .duplicate⟩
  · split
    · rename_i e he
      obtain ⟨t, ht⟩ := hlogged.failed e
      exact ⟨_, t, ht, .error e⟩
    · rename_i final happlied
      rw [← hevent] at happlied
      obtain ⟨t, ht⟩ := hlogged.applied hown hidle happlied
      exact ⟨_, t, ht, .duplicate⟩
    · rename_i outcome final hne happlied
      rw [← hevent] at happlied
      obtain ⟨t, ht⟩ := hlogged.applied hown hidle happlied
      exact ⟨_, t, ht, .ok outcome⟩

/-- **A replay that nobody interrupts** does to its row what a replay does. -/
theorem replay_is_a_run (hown : hooks.OwnHandlers) (hidle : s.IdleBut i)
    (hstart : s.progress i = .started) {r : ℕ × StripeWebhookEvent}
    (hattempt : attempts i = .replay r.1) {envs : ℕ → Env} :
    ∃ progress t, Alone hooks attempts s i (s.inbox.replayRow hooks envs false r).2 progress t := by
  have hevent : (attempts i).event = none := by
    rw [hattempt]
    rfl
  have hlogged := (@Alone.start hooks attempts s i).tail
    (.select i r.1 hstart hattempt)
  have hlogged : Alone hooks attempts s i s.inbox (.logged r.1) (s.moves i (.logged r.1)) := hlogged
  unfold Inbox.replayRow
  dsimp only
  rw [if_neg Bool.false_ne_true]
  split
  · rename_i e he
    obtain ⟨t, ht⟩ := hlogged.failed e
    exact ⟨_, t, ht⟩
  · rename_i outcome final happlied
    rw [← hevent] at happlied
    obtain ⟨t, ht⟩ := hlogged.applied hown hidle happlied
    exact ⟨_, t, ht⟩

end Alone
end Intake

/-! ## Grants -/

/-- **Each object brought credits once at most**, and none that is not claimed. -/
structure Db.GrantedOnce (db : Db) : Prop where
  once : ∀ key, db.grantsFor key ≤ 1
  claimed : ∀ key : ObjectKey, 0 < db.grantsFor key → db.Claimed key.1 key.2

/-- **One grant names an invoice at most**, and none before the object is claimed that brings the
invoice's credits. -/
structure Db.NamedOnce (source : String → ObjectKey) (db : Db) : Prop where
  once : ∀ invoice, db.grantsNaming invoice ≤ 1
  claimed : ∀ invoice, 0 < db.grantsNaming invoice →
    db.Claimed (source invoice).1 (source invoice).2

/-- A count that rises only with the claim of what it belongs to stays at one. -/
theorem counted_once {Counted : Type} {source : Counted → ObjectKey} {before after : Counted → ℤ}
    {db db' : Db} {claim : Option ObjectKey}
    (hfree : ∀ key ∈ claim, ¬ db.Claimed key.1 key.2)
    (hclaimed : ∀ key : ObjectKey, db'.Claimed key.1 key.2 ↔ db.Claimed key.1 key.2 ∨ claim = some key)
    (hrises : ∀ x, after x = before x ∨ claim = some (source x) ∧ after x = before x + 1)
    (honce : ∀ x, before x ≤ 1) (hdone : ∀ x, 0 < before x → db.Claimed (source x).1 (source x).2) :
    (∀ x, after x ≤ 1) ∧ ∀ x, 0 < after x → db'.Claimed (source x).1 (source x).2 := by
  refine ⟨fun x => ?_, fun x hpos => (hclaimed (source x)).mpr ?_⟩
  · rcases hrises x with hsame | ⟨hkey, hmore⟩
    · rw [hsame]
      exact honce x
    · -- What is claimed only now has brought nothing before.
      have hnone : before x ≤ 0 := by
        by_contra hcounted
        exact hfree _ hkey (hdone x (by omega))
      omega
  · rcases hrises x with hsame | ⟨hkey, -⟩
    · rw [hsame] at hpos
      exact Or.inl (hdone x hpos)
    · exact Or.inr hkey

/-- An object's row is no other's. -/
theorem ObjectKey.brought_unique {key key' : ObjectKey} {session invoice : Option Json}
    (h : key.Brought session invoice) (h' : key'.Brought session invoice) : key' = key := by
  rcases h with ⟨hscope, hid⟩ | ⟨hscope, hnone, hid⟩
  · rcases h' with ⟨hscope', hid'⟩ | ⟨-, hnone', -⟩
    · have hsame := hid.symm.trans hid'
      exact Prod.ext (hscope'.trans hscope.symm) (Json.str.inj (Option.some.inj hsame)).symm
    · rw [hid] at hnone'
      cases hnone'
  · rcases h' with ⟨-, hid'⟩ | ⟨hscope', -, hid'⟩
    · rw [hnone] at hid'
      cases hid'
    · have hsame := hid.symm.trans hid'
      exact Prod.ext (hscope'.trans hscope.symm) (Json.str.inj (Option.some.inj hsame)).symm

theorem ObjectKey.not_brought_none (key : ObjectKey) : ¬ key.Brought none none := by
  rintro (⟨-, hid⟩ | ⟨-, -, hid⟩) <;> cases hid

section Handles
variable {may : ObjectKey → String → Prop} {source : String → ObjectKey} {claim : Option ObjectKey}
variable {db db' : Db}

theorem Db.Handles.grantedOnce (h : db.Handles may claim db') (hdb : db.GrantedOnce) :
    db'.GrantedOnce := by
  have hrises : ∀ key, db'.grantsFor key = db.grantsFor key ∨
      claim = some (id key) ∧ db'.grantsFor key = db.grantsFor key + 1 := by
    intro key
    rcases h.granted with hsame | ⟨own, hclaim, session, invoice, hown, -, hone⟩
    · exact Or.inl (hsame key.Brought key.not_brought_none)
    · have hcount := hone key.Brought key.not_brought_none
      by_cases hkey : key.Brought session invoice
      · rw [if_pos hkey] at hcount
        exact Or.inr ⟨hclaim.trans (congrArg some (ObjectKey.brought_unique hkey hown)), hcount⟩
      · rw [if_neg hkey, add_zero] at hcount
        exact Or.inl hcount
  obtain ⟨honce, hclaimed⟩ := counted_once h.free h.claimed hrises hdb.once hdb.claimed
  exact ⟨honce, hclaimed⟩

/-- A handler that may bring an invoice's credits under one object alone. -/
theorem Db.Handles.namedOnce (h : db.Handles may claim db')
    (hsource : ∀ key invoice, may key invoice → source invoice = key) (hdb : db.NamedOnce source) :
    db'.NamedOnce source := by
  have hrises : ∀ invoice, db'.grantsNaming invoice = db.grantsNaming invoice ∨
      claim = some (source invoice) ∧ db'.grantsNaming invoice = db.grantsNaming invoice + 1 := by
    intro invoice
    have hnone : ¬ NamesInvoice invoice none none := fun hid => by cases hid
    rcases h.granted with hsame | ⟨own, hclaim, session, named, -, hmay, hone⟩
    · exact Or.inl (hsame (NamesInvoice invoice) hnone)
    · have hcount := hone (NamesInvoice invoice) hnone
      by_cases hnames : NamesInvoice invoice session named
      · rw [if_pos hnames] at hcount
        exact Or.inr ⟨hclaim.trans (congrArg some (hsource own invoice (hmay invoice hnames)).symm),
          hcount⟩
      · rw [if_neg hnames, add_zero] at hcount
        exact Or.inl hcount
  obtain ⟨honce, hclaimed⟩ := counted_once h.free h.claimed hrises hdb.once hdb.claimed
  exact ⟨honce, hclaimed⟩

end Handles

namespace Intake
variable {hooks : WebhookSettings} {attempts : ℕ → Attempt} {s s' : Intake}

/-- What one step does to the grants of a database, where only a handler's run does anything. -/
theorem Step.granted {P : Db → Prop} (h : Step hooks attempts s s')
    (hhandled : ∀ i row claim locked db, s.progress i = .working row claim →
      s.inbox.log.get? row = some locked → ∀ claim', s.inbox.db.Handles
        (((attempts i).event.getD locked.payload).Brings hooks locked.eventType) claim' db → P db)
    (hother : ∀ db : Db, (∀ key : ObjectKey, db.Claimed key.1 key.2 ↔
        s.inbox.db.Claimed key.1 key.2) → (∀ key, db.grantsFor key = s.inbox.db.grantsFor key) →
      (∀ invoice, db.grantsNaming invoice = s.inbox.db.grantsNaming invoice) → P db)
    (hown : hooks.OwnHandlers) (hs : P s.inbox.db) : P s'.inbox.db := by
  cases h with
  | log i env event id hstart hattempt hid =>
    show P (s.inbox.logEvent env id event).2.db
    rw [logEvent_db]
    exact hs
  | select i row hstart hattempt | skip i row hlogged hdone | fail i row claim e hworking
  | unlocked i row e hlogged | stop i | report i row e hfailed | lock i row hlogged hundone hfree
  | claim i row key hworking hunclaimed hfree => exact hs
  | commit i row claim env locked stale db hworking hlocked hrun hclaims =>
    obtain ⟨claim', hhandles⟩ := dispatch_handles hown hrun
    exact hhandled i row claim locked db hworking hlocked claim' hhandles
  | other db hclaims hgrants hnames => exact hother db hclaims hgrants hnames

theorem Runs.grantedOnce (hown : hooks.OwnHandlers) (h : Runs hooks attempts s s')
    (hs : s.inbox.db.GrantedOnce) : s'.inbox.db.GrantedOnce := by
  induction h with
  | refl => exact hs
  | tail _ hstep ih =>
    refine hstep.granted (fun i row claim locked db _ _ claim' hhandles => hhandles.grantedOnce ih)
      (fun db hclaims hgrants _ => ⟨fun key => ?_, fun key hgranted => ?_⟩) hown ih
    · rw [hgrants]
      exact ih.once key
    · rw [hgrants] at hgranted
      exact (hclaims key).mpr (ih.claimed key hgranted)

/-! ## One source for each invoice -/

/-- A type that an event of this id is logged with, or may come to be. -/
inductive LoggedAs (attempts : ℕ → Attempt) (inbox : Inbox) (id : String) : String → Prop
  | before (k : ℕ) (row : StripeWebhookEvent) (hrow : inbox.log.get? k = some row)
      (hid : row.stripeEventId = id) : LoggedAs attempts inbox id row.eventType
  | delivered (i : ℕ) (event : StripeEvent) (hattempt : attempts i = .delivery event)
      (hid : event.id = some id) : LoggedAs attempts inbox id event.type

/-- **Each invoice has one source**: whatever payload a handler is given, the object under whose
claim it may grant credits and write down the invoice is the invoice's source. -/
structure OneSource (hooks : WebhookSettings) (attempts : ℕ → Attempt) (inbox : Inbox)
    (source : String → ObjectKey) : Prop where
  logged : ∀ k row, inbox.log.get? k = some row → row.processedAt = none →
    ∀ key invoice, row.payload.Brings hooks row.eventType key invoice → source invoice = key
  delivered : ∀ i event, attempts i = .delivery event → ∀ id ∈ event.id, ∀ eventType,
    LoggedAs attempts inbox id eventType →
      ∀ key invoice, event.Brings hooks eventType key invoice → source invoice = key

/-- What an attempt may be at, and what the log holds: rows and payloads whose invoices have one
source. -/
structure Informed (hooks : WebhookSettings) (attempts : ℕ → Attempt) (inbox : Inbox)
    (source : String → ObjectKey) (s : Intake) : Prop where
  payload : ∀ k row, s.inbox.log.get? k = some row → row.processedAt = none →
    ∀ key invoice, row.payload.Brings hooks row.eventType key invoice → source invoice = key
  logged : ∀ k row, s.inbox.log.get? k = some row →
    LoggedAs attempts inbox row.stripeEventId row.eventType
  own : ∀ i event k, attempts i = .delivery event → (s.progress i).atRow = some k →
    ∃ row, s.inbox.log.get? k = some row ∧ event.id = some row.stripeEventId

theorem Informed.opened {inbox : Inbox} {source : String → ObjectKey}
    (h : OneSource hooks attempts inbox source) :
    Informed hooks attempts inbox source { inbox } where
  payload := h.logged
  logged := fun k row hrow => .before k row hrow rfl
  own := fun _ _ _ _ hat => by cases hat

/-- **What becomes of the log**: a row keeps what it says, and a new one is of an event that was
delivered. -/
structure LogKept (attempts : ℕ → Attempt) (log log' : Table StripeWebhookEvent) : Prop where
  kept : ∀ k row, log.get? k = some row →
    ∃ row', log'.get? k = some row' ∧ row'.stripeEventId = row.stripeEventId
  traced : ∀ k row', log'.get? k = some row' →
    (∃ row, log.get? k = some row ∧ row'.stripeEventId = row.stripeEventId ∧
      row'.eventType = row.eventType ∧ row'.payload = row.payload ∧
      (row'.processedAt = none → row.processedAt = none)) ∨
    ∃ i, attempts i = .delivery row'.payload ∧ row'.payload.id = some row'.stripeEventId ∧
      row'.eventType = row'.payload.type

theorem LogKept.refl (log : Table StripeWebhookEvent) : LogKept attempts log log where
  kept := fun _ row hrow => ⟨row, hrow, rfl⟩
  traced := fun _ row hrow => Or.inl ⟨row, hrow, rfl, rfl, rfl, id⟩

/-- A save over a row that leaves it what it is about. -/
theorem LogKept.modify {log : Table StripeWebhookEvent} (k : ℕ)
    {f : StripeWebhookEvent → StripeWebhookEvent}
    (hf : ∀ row, (f row).stripeEventId = row.stripeEventId ∧ (f row).eventType = row.eventType ∧
      (f row).payload = row.payload ∧ ((f row).processedAt = none → row.processedAt = none)) :
    LogKept attempts log (log.modify k f) where
  kept := fun j row hrow => by
    rw [Table.get?_modify]
    split
    · exact ⟨f row, by rw [hrow]; rfl, (hf row).1⟩
    · exact ⟨row, hrow, rfl⟩
  traced := fun j row' hrow' => by
    rw [Table.get?_modify] at hrow'
    split at hrow'
    · obtain ⟨row, hrow, rfl⟩ := Option.map_eq_some_iff.mp hrow'
      exact Or.inl ⟨row, hrow, hf row⟩
    · exact Or.inl ⟨row', hrow', rfl, rfl, rfl, id⟩

theorem LogKept.logEvent {inbox : Inbox} {env : Env} {i : ℕ} {event : StripeEvent} {id : String}
    (hattempt : attempts i = .delivery event) (hid : event.id = some id) :
    LogKept attempts inbox.log (inbox.logEvent env id event).2.log := by
  unfold Inbox.logEvent
  split
  · exact .refl _
  · refine ⟨fun k row hrow => ⟨row, Table.get?_insert_of_some _ hrow, rfl⟩, fun k row' hrow' => ?_⟩
    dsimp only at hrow'
    by_cases hk : k = inbox.log.next
    · subst hk
      rw [Table.get?_insert_next] at hrow'
      obtain rfl := Option.some.inj hrow'
      exact Or.inr ⟨i, hattempt, hid, rfl⟩
    · rw [Table.get?_insert_of_ne _ hk] at hrow'
      exact Or.inl ⟨row', hrow', rfl, rfl, rfl, fun h => h⟩

/-- The row that is logged is of the event. -/
theorem logEvent_row (inbox : Inbox) (env : Env) (id : String) (event : StripeEvent) :
    ∃ row, (inbox.logEvent env id event).2.log.get? (inbox.logEvent env id event).1 = some row ∧
      row.stripeEventId = id := by
  unfold Inbox.logEvent
  split
  · rename_i k row hfind
    exact ⟨row, Table.find?_some hfind⟩
  · exact ⟨_, Table.get?_insert_next _ _, rfl⟩

theorem Step.logKept (h : Step hooks attempts s s') :
    LogKept attempts s.inbox.log s'.inbox.log := by
  cases h with
  | log i env event id hstart hattempt hid => exact .logEvent hattempt (nonempty_eq_some hid)
  | select i row hstart hattempt | skip i row hlogged hdone | fail i row claim e hworking
  | unlocked i row e hlogged | stop i | lock i row hlogged hundone hfree
  | claim i row key hworking hunclaimed hfree | other db hclaims hgrants hnames => exact .refl _
  | report i row e hfailed =>
    exact .modify (f := fun r => { r with error := some e }) row fun _ => ⟨rfl, rfl, rfl, id⟩
  | commit i row claim env locked stale db hworking hlocked hrun hclaims =>
    exact .modify (f := fun r => { r with
      processedAt := some env.now
      ignoredStale := stale
      error := none }) row fun _ => ⟨rfl, rfl, rfl, fun hdone => by cases hdone⟩

/-- **Where an attempt comes to**: it stays at its row, replays one, or has logged its event. -/
theorem Step.atRow (h : Step hooks attempts s s') {i k : ℕ} {event : StripeEvent}
    (hattempt : attempts i = .delivery event) (hat : (s'.progress i).atRow = some k) :
    (s.progress i).atRow = some k ∨
      ∃ row, s'.inbox.log.get? k = some row ∧ event.id = some row.stripeEventId := by
  -- Only the attempt that moves is at another row afterwards.
  have hmoves : ∀ (j : ℕ) (progress : Progress),
      (Function.update s.progress j progress i).atRow = some k →
        (s.progress i).atRow = some k ∨ i = j ∧ progress.atRow = some k := by
    intro j progress hnew
    by_cases hij : i = j
    · rw [hij, Function.update_self] at hnew
      exact Or.inr ⟨hij, hnew⟩
    · rw [Function.update_of_ne hij] at hnew
      exact Or.inl hnew
  cases h with
  | log j env event' id hstart hattempt' hid =>
    rcases hmoves _ _ hat with hsame | ⟨rfl, hrow⟩
    · exact Or.inl hsame
    · right
      obtain rfl := Attempt.delivery.inj (hattempt.symm.trans hattempt')
      obtain rfl := Option.some.inj hrow
      obtain ⟨row, hget, hrowId⟩ := logEvent_row s.inbox env id event
      exact ⟨row, hget, (nonempty_eq_some hid).trans (congrArg some hrowId.symm)⟩
  | select j row hstart hattempt' =>
    rcases hmoves _ _ hat with hsame | ⟨rfl, -⟩
    · exact Or.inl hsame
    · rw [hattempt] at hattempt'
      cases hattempt'
  | skip j row _ _ | fail j row claim e _ | unlocked j row e _ | stop j | report j row e _ =>
    rcases hmoves _ _ hat with hsame | ⟨rfl, hnone⟩
    · exact Or.inl hsame
    · cases hnone
  | commit j row claim env locked stale db hworking hlocked hrun hclaims =>
    rcases hmoves _ _ hat with hsame | ⟨rfl, hnone⟩
    · exact Or.inl hsame
    · cases hnone
  | lock j row hlogged hundone hfree =>
    rcases hmoves _ _ hat with hsame | ⟨rfl, hrow⟩
    · exact Or.inl hsame
    · left
      rw [hlogged]
      exact hrow
  | claim j row key hworking hunclaimed hfree =>
    rcases hmoves _ _ hat with hsame | ⟨rfl, hrow⟩
    · exact Or.inl hsame
    · left
      rw [hworking]
      exact hrow
  | other db hclaims hgrants hnames => exact Or.inl hat

/-- **Every step keeps the attempts informed.** -/
theorem Informed.step {inbox : Inbox} {source : String → ObjectKey}
    (hsource : OneSource hooks attempts inbox source)
    (hi : Informed hooks attempts inbox source s) (h : Step hooks attempts s s') :
    Informed hooks attempts inbox source s' := by
  obtain ⟨hkept, htraced⟩ := h.logKept
  refine ⟨fun k row hrow hundone => ?_, fun k row hrow => ?_, fun i event k hattempt hat => ?_⟩
  · rcases htraced k row hrow with ⟨old, hold, -, htype, hpayload, hbefore⟩ | ⟨i, hattempt, hid, htype⟩
    · rw [hpayload, htype]
      exact hi.payload k old hold (hbefore hundone)
    · refine hsource.delivered i row.payload hattempt row.stripeEventId hid row.eventType ?_
      rw [htype]
      exact .delivered i row.payload hattempt hid
  · rcases htraced k row hrow with ⟨old, hold, hid, htype, -, -⟩ | ⟨i, hattempt, hid, htype⟩
    · rw [hid, htype]
      exact hi.logged k old hold
    · rw [htype]
      exact .delivered i row.payload hattempt hid
  · rcases h.atRow hattempt hat with hsame | hnew
    · obtain ⟨row, hrow, hid⟩ := hi.own i event k hattempt hsame
      obtain ⟨row', hrow', hid'⟩ := hkept k row hrow
      exact ⟨row', hrow', hid.trans (congrArg some hid'.symm)⟩
    · exact hnew

/-- **What a handler is given has one source for each invoice.** -/
theorem Informed.given {inbox : Inbox} {source : String → ObjectKey}
    (hsource : OneSource hooks attempts inbox source)
    (hi : Informed hooks attempts inbox source s) {i row : ℕ} {claim : Option ObjectKey}
    {locked : StripeWebhookEvent} (hworking : s.progress i = .working row claim)
    (hlocked : s.inbox.log.get? row = some locked) (hundone : locked.processedAt = none) :
    ∀ key invoice, ((attempts i).event.getD locked.payload).Brings hooks locked.eventType key invoice →
      source invoice = key := by
  cases hattempt : attempts i with
  | replay _ => exact hi.payload row locked hlocked hundone
  | delivery event =>
    obtain ⟨row', hrow', hid⟩ := hi.own i event row hattempt (by rw [hworking]; rfl)
    obtain rfl := Option.some.inj (hlocked.symm.trans hrow')
    exact hsource.delivered i event hattempt _ hid _ (hi.logged row locked hlocked)

theorem Runs.informed {inbox : Inbox} {source : String → ObjectKey}
    (hsource : OneSource hooks attempts inbox source) (h : Runs hooks attempts { inbox } s) :
    Informed hooks attempts inbox source s := by
  induction h with
  | refl => exact .opened hsource
  | tail _ hstep ih => exact ih.step hsource hstep

/-- **One grant names an invoice at most**, where each invoice has one source. -/
theorem Runs.namedOnce (hown : hooks.OwnHandlers) {inbox : Inbox} {source : String → ObjectKey}
    (hsource : OneSource hooks attempts inbox source) (hdb : inbox.db.NamedOnce source)
    (h : Runs hooks attempts { inbox } s) : s.inbox.db.NamedOnce source := by
  induction h with
  | refl => exact hdb
  | @tail t _ hruns hstep ih =>
    refine hstep.granted (fun i row claim locked db hworking hlocked claim' hhandles => ?_)
      (fun db hclaims _ hnames => ⟨fun invoice => ?_, fun invoice hnamed => ?_⟩) hown ih
    · -- A row under its lock is not processed yet.
      have hrows : t.rows.Sound inbox.Processed :=
        (Leases.Sound.opened inbox.Processed).run (Runs.rows hruns)
      have hundone : locked.processedAt = none := by
        by_contra hdone
        refine hrows.undone i row ?_ ⟨locked, hlocked, hdone⟩
        show (t.progress i).row = some row
        rw [hworking]
        rfl
      exact hhandles.namedOnce ((Runs.informed hsource hruns).given hsource hworking hlocked hundone) ih
    · rw [hnames]
      exact ih.once invoice
    · rw [hnames] at hnamed
      exact (hclaims _).mpr (ih.claimed invoice hnamed)

end Intake

/-- **Webhook effects happen at most once.**  In every interleaving of deliveries, retries,
duplicates and replays, with handlers that fail at any point: the effects of a logged event
commit at most once, and never where it was processed before; a row is processed exactly when
they did; each of the provider's objects is claimed once; where the registry runs the library's
own handlers, each checkout session brings credits once at most, and each invoice once at most as
a renewal; and where each invoice has one source besides, one grant at most names it. -/
theorem webhook_effects_once (hooks : WebhookSettings) (attempts : ℕ → Attempt) (inbox : Inbox)
    (s : Intake) (h : Intake.Runs hooks attempts { inbox } s) :
    (∀ k, (s.committed.map Prod.fst).count k ≤ 1) ∧
    (∀ k, inbox.Processed k → k ∉ s.committed.map Prod.fst) ∧
    (∀ k, s.inbox.Processed k ↔ inbox.Processed k ∨ k ∈ s.committed.map Prod.fst) ∧
    (s.committed.filterMap Prod.snd).Nodup ∧
    (hooks.OwnHandlers → inbox.db.GrantedOnce → ∀ key, s.inbox.db.grantsFor key ≤ 1) ∧
    (hooks.OwnHandlers → ∀ source, Intake.OneSource hooks attempts inbox source →
      inbox.db.NamedOnce source → ∀ invoice, s.inbox.db.grantsNaming invoice ≤ 1) := by
  have hrows : s.rows.Sound inbox.Processed :=
    (Leases.Sound.opened inbox.Processed).run (Intake.Runs.rows h)
  have hobjects : s.objects.Sound fun key => inbox.db.Claimed key.1 key.2 :=
    (Leases.Sound.opened fun key : ObjectKey => inbox.db.Claimed key.1 key.2).run
      (Intake.Runs.objects h)
  refine ⟨fun k => (hrows.count_le k).1, fun k hdone hmem => hrows.fresh k hmem hdone, hrows.done,
    hobjects.nodup, fun hown hdb => (Intake.Runs.grantedOnce hown h hdb).once,
    fun hown source hsource hdb => (Intake.Runs.namedOnce hown hsource hdb h).once⟩

/-! ## Two deliveries at once -/

/-- A checkout's event; the session names the first period's invoice. -/
def proEvent : StripeEvent where
  id := some "evt_0"
  type := "checkout.session.completed"
  created := some 10
  object := { session := { proSession with invoice := some "in_1" } }

/-- The log before anything has arrived. -/
def emptyInbox : Inbox := { db := newBuyer }

/-- Two attempts that nobody interrupts, one after the other. -/
theorem two_posts (first second : StripeEvent) {id id' type type' : String}
    (hid : nonempty first.id = some id) (htype : nonempty (some first.type) = some type)
    (hid' : nonempty second.id = some id') (htype' : nonempty (some second.type) = some type')
    (attempts : ℕ → Attempt) (hfirst : attempts 0 = .delivery first)
    (hsecond : attempts 1 = .delivery second) (inbox : Inbox) : ∃ s,
    Intake.Runs {} attempts { inbox } s ∧
      s.inbox = ((inbox.post {} (Env.plain 11000000) (.event first)).2.post {} (Env.plain 12000000)
        (.event second)).2 := by
  have hown : (WebhookSettings.OwnHandlers {}) :=
    WebhookSettings.ownHandlers_of_entries fun _ h => by cases h
  obtain ⟨progress, s, hs, hend⟩ := @Intake.post_is_a_run {} attempts { inbox } 0
    (Env.plain 11000000) hown (fun _ _ => ⟨rfl, rfl⟩) rfl first hfirst id type hid htype
  have hidle : s.IdleBut 1 := by
    intro j hj
    by_cases hj0 : j = 0
    · rw [hj0, hs.own]
      exact hend.letGo
    · rw [hs.others j hj0]
      exact ⟨rfl, rfl⟩
  obtain ⟨_, t, ht, -⟩ := @Intake.post_is_a_run {} attempts s 1 (Env.plain 12000000) hown hidle
    (hs.others 1 (by decide)) second hsecond id' type' hid' htype'
  refine ⟨t, hs.runs.trans ht.runs, ?_⟩
  rw [ht.inbox, hs.inbox]

/-- All credits of `in_1` come from the session that names it. -/
theorem proEvent_oneSource : Intake.OneSource {} (fun _ => .delivery proEvent) emptyInbox
    fun _ => (.checkoutSession, "cs_1") where
  logged := fun k row hrow => absurd hrow Table.get?_empty_ne
  delivered := by
    rintro i event hattempt id - eventType - key invoice hbrings
    obtain rfl := Attempt.delivery.inj hattempt
    rcases hbrings with ⟨-, id, hid, rfl, -⟩ | ⟨-, hid, -⟩
    · exact congrArg (Prod.mk GrantScope.checkoutSession) (Option.some.inj hid)
    · cases hid

theorem webhook_effects_once_twoDeliveries : ∃ s,
    Intake.Runs {} (fun _ => .delivery proEvent) { inbox := emptyInbox } s ∧
      s.inbox.Processed 0 ∧ (s.committed.map Prod.fst).count 0 ≤ 1 ∧
      s.inbox.db.grantsFor (.checkoutSession, "cs_1") = 1 ∧
      0 < s.inbox.db.grantsNaming "in_1" ∧ s.inbox.db.grantsNaming "in_1" ≤ 1 := by
  obtain ⟨s, hruns, hinbox⟩ := @two_posts proEvent proEvent "evt_0" "evt_0"
    "checkout.session.completed" "checkout.session.completed" rfl rfl rfl rfl
    (fun _ => .delivery proEvent) rfl rfl emptyInbox
  have hdone : s.inbox.Processed 0 ∧ s.inbox.db.grantsFor (.checkoutSession, "cs_1") = 1 ∧
      0 < s.inbox.db.grantsNaming "in_1" := by
    rw [hinbox]
    decide +kernel
  have hnone : ∀ invoice, emptyInbox.db.grantsNaming invoice = 0 := fun _ => rfl
  obtain ⟨honce, -, -, -, -, hnamed⟩ := webhook_effects_once {} (fun _ => .delivery proEvent)
    emptyInbox s hruns
  refine ⟨s, hruns, hdone.1, honce 0, hdone.2.1, hdone.2.2, ?_⟩
  refine hnamed (WebhookSettings.ownHandlers_of_entries fun _ h => by cases h) _ proEvent_oneSource
    ⟨fun invoice => ?_, fun invoice hpos => ?_⟩ "in_1"
  · rw [hnone]
    decide
  · rw [hnone] at hpos
    cases hpos

/-- The invoice of the first period, paid under a reason that is not the first period's. -/
def firstInvoice : StripeEvent where
  id := some "evt_1"
  type := "invoice.paid"
  created := some 11
  object := { invoice := {
    id := some "in_1"
    subscription := some "sub_1"
    billingReason := "subscription_cycle" } }

/-- The session's row and the renewal's both name the invoice. -/
theorem invoice_granted_twice : ∃ s,
    Intake.Runs {} (fun i => .delivery (if i = 0 then proEvent else firstInvoice))
        { inbox := emptyInbox } s ∧
      WebhookSettings.OwnHandlers {} ∧ emptyInbox.db.GrantedOnce ∧
      (∀ invoice, emptyInbox.db.grantsNaming invoice = 0) ∧
      s.inbox.db.grantsNaming "in_1" = 2 := by
  obtain ⟨s, hruns, hinbox⟩ := @two_posts proEvent firstInvoice "evt_0" "evt_1"
    "checkout.session.completed" "invoice.paid" rfl rfl rfl rfl
    (fun i => .delivery (if i = 0 then proEvent else firstInvoice)) rfl rfl emptyInbox
  have hnone : ∀ key, emptyInbox.db.grantsFor key = 0 := fun _ => rfl
  refine ⟨s, hruns, WebhookSettings.ownHandlers_of_entries (fun _ h => by cases h),
    ⟨fun key => ?_, fun key hpos => ?_⟩, fun _ => rfl, ?_⟩
  · rw [hnone]
    decide
  · rw [hnone] at hpos
    cases hpos
  · rw [hinbox]
    decide +kernel

end StapelBilling
