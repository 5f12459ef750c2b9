import StapelBilling.Calls
import StapelBilling.Webhooks

/-! # Redeliveries and replays

An event is handled by its first delivery that gets through.  One that failed may be delivered
again, and when the provider has given up it is replayed from the row that its first delivery
wrote.  Both take the row through the same steps: a processed row is left alone, a handler's
work commits with the processed mark, and a failure leaves the error on the row and nothing else.

* `Inbox.attempt`, `Inbox.Tried`: the run of one logged row, and what it comes to.
* `Inbox.Accounted`: the log holds one row for each event, and the processed rows are those whose
  handlers ran to the end, each once.
* `events_run_once`: the accounts hold over every history of deliveries and replays.
* `replay_is_redelivery`: replaying a row does what delivering its event again would do.
* `replay_report`: the report of a replay says what the replay wrote, and a dry run foretells it.
-/
namespace StapelBilling
open Store

/-! ## One run of a logged row -/

/-- What the endpoint answers when the run of a row came to this. -/
def replyTo : Except WebhookError EventOutcome → WebhookReply
  | .error _ => .error
  | .ok .duplicate => .duplicate
  | .ok _ => .ok

/-- What a replay reports when the run of a row came to this. -/
def reportOf : Except WebhookError EventOutcome → ReplayOutcome
  | .error e => .error e
  | .ok outcome => .ran outcome

/-- Does a report say that the row ran to the end? -/
def ReplayOutcome.isRan : ReplayOutcome → Bool
  | .ran .duplicate => false
  | .ran _ => true
  | _ => false

/-- A row once a run of it came to this. -/
def StripeWebhookEvent.after (env : Env) (row : StripeWebhookEvent) :
    Except WebhookError EventOutcome → StripeWebhookEvent
  | .error e => { row with error := some e }
  | .ok .duplicate => row
  | .ok outcome =>
    { row with
      processedAt := some env.now
      ignoredStale := decide (outcome = .ignoredStale)
      error := none }

theorem replyTo_ok_iff (result : Except WebhookError EventOutcome) :
    replyTo result = .ok ↔ (reportOf result).isRan := by
  cases result with
  | error e => exact iff_of_false nofun nofun
  | ok outcome => cases outcome <;> decide

theorem replyTo_duplicate_iff (result : Except WebhookError EventOutcome) :
    replyTo result = .duplicate ↔ result = .ok .duplicate := by
  cases result with
  | error e => exact iff_of_false nofun nofun
  | ok outcome => cases outcome <;> simp [replyTo]

theorem reportOf_injective : Function.Injective reportOf := by
  intro result result' h
  cases result <;> cases result' <;> cases h <;> rfl

namespace Inbox

/-- Run a logged row and write a failure over it. -/
def attempt (hooks : WebhookSettings) (env : Env) (k : ℕ) (event : Option StripeEvent)
    (inbox : Inbox) : Except WebhookError EventOutcome × Inbox :=
  match inbox.applyStoredEvent hooks env k event with
  | .error e => (.error e, inbox.recordError k e)
  | .ok (outcome, inbox) => (.ok outcome, inbox)

/-- **What one run of a logged row comes to.** -/
inductive Tried (env : Env) (inbox : Inbox) (k : ℕ) (row : StripeWebhookEvent) :
    Except WebhookError EventOutcome → Inbox → Prop
  | duplicate (hdone : row.processedAt ≠ none) : Tried env inbox k row (.ok .duplicate) inbox
  | ran (hopen : row.processedAt = none) (stale : Bool) (db : Db) :
      Tried env inbox k row (.ok (if stale then .ignoredStale else .processed))
        { db
          log := mark env k stale inbox.log }
  | failed (hopen : row.processedAt = none) (e : WebhookError) :
      Tried env inbox k row (.error e) (inbox.recordError k e)

section Attempts
variable {hooks : WebhookSettings} {env : Env} {event : Option StripeEvent} {inbox inbox' : Inbox}
  {k j : ℕ} {row other : StripeWebhookEvent} {result : Except WebhookError EventOutcome}

theorem attempt_tried (hooks : WebhookSettings) (env : Env) (event : Option StripeEvent)
    (hrow : inbox.log.get? k = some row) :
    Tried env inbox k row (inbox.attempt hooks env k event).1
      (inbox.attempt hooks env k event).2 := by
  by_cases hdone : row.processedAt ≠ none
  · simp only [attempt, applyStoredEvent, hrow, if_pos hdone]
    exact .duplicate hdone
  · simp only [attempt, applyStoredEvent, hrow, if_neg hdone]
    have hopen := not_not.mp hdone
    cases hrun : hooks.dispatch env row.eventType (event.getD row.payload) inbox.db with
    | error e => exact .failed hopen e
    | ok ran => exact .ran hopen ran.1 ran.2

theorem processed_iff (hrow : inbox.log.get? k = some row) :
    inbox.Processed k ↔ row.processedAt ≠ none := by
  unfold Processed
  simp [hrow]

/-- **The look at the row before the lock changes nothing**: the endpoint answers what the run
under the lock comes to. -/
theorem process_eq (hooks : WebhookSettings) (env : Env) (event : StripeEvent)
    (hrow : inbox.log.get? k = some row) :
    inbox.process hooks env k event =
      (replyTo (inbox.attempt hooks env k (some event)).1,
        (inbox.attempt hooks env k (some event)).2) := by
  by_cases hdone : row.processedAt ≠ none
  · have hprocessed := (processed_iff hrow).mpr hdone
    simp only [process, if_pos hprocessed, attempt, applyStoredEvent, hrow, if_pos hdone]
    rfl
  · have hprocessed : ¬ inbox.Processed k := fun h => hdone ((processed_iff hrow).mp h)
    simp only [process, if_neg hprocessed, attempt, applyStoredEvent, hrow, if_neg hdone,
      Option.getD_some]
    cases hooks.dispatch env row.eventType event inbox.db with
    | error e => rfl
    | ok ran => cases hstale : ran.1 <;> simp [hstale, replyTo]

/-- A row that a replay has listed is run as it is. -/
theorem replayRow_eq (hooks : WebhookSettings) (envs : ℕ → Env) (r : ℕ × StripeWebhookEvent)
    (inbox : Inbox) :
    inbox.replayRow hooks envs false r =
      ({ stripeEventId := r.2.stripeEventId
         eventType := r.2.eventType
         receivedAt := r.2.receivedAt
         previousError := r.2.error
         outcome := reportOf (inbox.attempt hooks (envs r.1) r.1 none).1 },
        (inbox.attempt hooks (envs r.1) r.1 none).2) := by
  unfold replayRow attempt
  rw [if_neg Bool.false_ne_true]
  cases inbox.applyStoredEvent hooks (envs r.1) r.1 none with
  | error e => rfl
  | ok answered => rfl

/-- The run of a row is written over that row. -/
theorem Tried.get?_self (h : Tried env inbox k row result inbox')
    (hrow : inbox.log.get? k = some row) : inbox'.log.get? k = some (row.after env result) := by
  cases h with
  | duplicate hdone => exact hrow
  | ran hopen stale db =>
    show (inbox.log.modify k _).get? k = _
    rw [Table.get?_modify, if_pos rfl, hrow]
    cases stale <;> rfl
  | failed hopen e =>
    show (inbox.log.modify k _).get? k = _
    rw [Table.get?_modify, if_pos rfl, hrow]
    rfl

/-- The run of a row leaves every other row alone. -/
theorem Tried.get?_of_ne (h : Tried env inbox k row result inbox') (hj : j ≠ k) :
    inbox'.log.get? j = inbox.log.get? j := by
  cases h with
  | duplicate hdone => rfl
  | ran hopen stale db => exact Table.get?_modify_of_ne _ _ hj
  | failed hopen e => exact Table.get?_modify_of_ne _ _ hj

/-- Only a run to the end touches the database. -/
theorem Tried.db (h : Tried env inbox k row result inbox') (hresult : replyTo result ≠ .ok) :
    inbox'.db = inbox.db := by
  cases h with
  | duplicate hdone => rfl
  | ran hopen stale db => cases stale <;> exact absurd rfl hresult
  | failed hopen e => rfl

theorem Tried.duplicate_iff (h : Tried env inbox k row result inbox') :
    result = .ok .duplicate ↔ row.processedAt ≠ none := by
  cases h with
  | duplicate hdone => exact iff_of_true rfl hdone
  | ran hopen stale db => cases stale <;> simp [hopen]
  | failed hopen e => simp [hopen]

/-- A row is processed once a run of it was acknowledged, and only then. -/
theorem Tried.after_processed_iff (h : Tried env inbox k row result inbox') :
    (row.after env result).processedAt ≠ none ↔ replyTo result ≠ .error := by
  cases h with
  | duplicate hdone => exact iff_of_true hdone nofun
  | ran hopen stale db => cases stale <;> exact iff_of_true nofun nofun
  | failed hopen e => exact iff_of_false (fun h => h hopen) fun h => h rfl

theorem after_event (row : StripeWebhookEvent) :
    (row.after env result).stripeEventId = row.stripeEventId ∧
      (row.after env result).eventType = row.eventType ∧
      (row.after env result).payload = row.payload := by
  unfold StripeWebhookEvent.after
  split <;> exact ⟨rfl, rfl, rfl⟩

/-- What the log held before the run of a row. -/
theorem Tried.log_iff (h : Tried env inbox k row result inbox')
    (hrow : inbox.log.get? k = some row) (j : ℕ) (later : StripeWebhookEvent) :
    inbox'.log.get? j = some later ↔
      ∃ earlier, inbox.log.get? j = some earlier ∧
        later = if j = k then earlier.after env result else earlier := by
  by_cases hj : j = k
  · subst hj
    rw [h.get?_self hrow, hrow]
    simp [eq_comm]
  · rw [h.get?_of_ne hj]
    simp [hj, eq_comm]

end Attempts

/-! ## The accounts of the log -/

end Inbox

/-- A row holds the event that it was made from. -/
structure StripeWebhookEvent.HoldsEvent (row : StripeWebhookEvent) : Prop where
  id : nonempty row.payload.id = some row.stripeEventId
  eventType : row.eventType = row.payload.type
  typed : nonempty (some row.eventType) ≠ none

namespace Inbox

/-- **The accounts of the log**: one row for each event, and the processed ones are those that
ran to the end, each once. -/
structure Accounted (ran : List String) (inbox : Inbox) : Prop where
  holds : inbox.log.Every StripeWebhookEvent.HoldsEvent
  unique : ∀ k j row other, inbox.log.get? k = some row → inbox.log.get? j = some other →
    row.stripeEventId = other.stripeEventId → k = j
  once : ran.Nodup
  processed : ∀ id, id ∈ ran ↔ ∃ k row, inbox.log.get? k = some row ∧ row.stripeEventId = id ∧
    row.processedAt ≠ none

section Accounts
variable {env : Env} {inbox inbox' : Inbox} {k : ℕ} {row : StripeWebhookEvent} {ran : List String}
  {result : Except WebhookError EventOutcome}

theorem Accounted.start (db : Db) : Accounted [] { db } where
  holds := fun _ _ h => Table.get?_empty_ne h
  unique := fun _ _ _ _ h => Table.get?_empty_ne h
  once := List.nodup_nil
  processed := fun _ => iff_of_false List.not_mem_nil
    fun ⟨_, _, h, _⟩ => Table.get?_empty_ne h

/-- The row of an event says whether it ran. -/
theorem Accounted.mem_iff (h : Accounted ran inbox) (hrow : inbox.log.get? k = some row) :
    row.stripeEventId ∈ ran ↔ row.processedAt ≠ none := by
  rw [h.processed]
  constructor
  · rintro ⟨j, other, hother, hid, hdone⟩
    obtain rfl := h.unique j k other row hother hrow hid
    obtain rfl := Option.some.inj (hother.symm.trans hrow)
    exact hdone
  · exact fun hdone => ⟨k, row, hrow, rfl, hdone⟩

/-- The ids that a run of a row adds to the accounts. -/
def adds (row : StripeWebhookEvent) (result : Except WebhookError EventOutcome) : List String :=
  if replyTo result = .ok then [row.stripeEventId] else []

/-- **The run of a row keeps the accounts.** -/
theorem Accounted.tried (h : Accounted ran inbox) (hrow : inbox.log.get? k = some row)
    (htried : Tried env inbox k row result inbox') :
    Accounted (ran ++ adds row result) inbox' := by
  have hlog := htried.log_iff hrow
  have hid : ∀ {j later}, inbox'.log.get? j = some later → ∃ earlier,
      inbox.log.get? j = some earlier ∧ later.stripeEventId = earlier.stripeEventId := by
    intro j later hlater
    obtain ⟨earlier, hearlier, rfl⟩ := (hlog j later).mp hlater
    refine ⟨earlier, hearlier, ?_⟩
    split
    · exact (after_event earlier).1
    · rfl
  refine ⟨?_, ?_, ?_, ?_⟩
  · intro j later hlater
    obtain ⟨earlier, hearlier, rfl⟩ := (hlog j later).mp hlater
    split
    · obtain ⟨hsame, htype, hpayload⟩ := @after_event env result earlier
      have hholds := h.holds j earlier hearlier
      exact ⟨by rw [hsame, hpayload]; exact hholds.id, by rw [htype, hpayload]; exact hholds.eventType,
        by rw [htype]; exact hholds.typed⟩
    · exact h.holds j earlier hearlier
  · intro j j' later later' hlater hlater' hsame
    obtain ⟨earlier, hearlier, he⟩ := hid hlater
    obtain ⟨earlier', hearlier', he'⟩ := hid hlater'
    exact h.unique j j' earlier earlier' hearlier hearlier' (by rw [← he, ← he', hsame])
  · unfold adds
    split
    · rename_i hok
      -- A row that runs to the end now has not done so before.
      have hopen : row.stripeEventId ∉ ran := by
        rw [h.mem_iff hrow, ← htried.duplicate_iff]
        rintro rfl
        cases hok
      refine List.nodup_append.mpr ⟨h.once, List.nodup_singleton _, ?_⟩
      rintro id hmem id' hid' rfl
      obtain rfl := List.mem_singleton.mp hid'
      exact hopen hmem
    · rw [List.append_nil]
      exact h.once
  · intro id
    rw [List.mem_append, h.processed]
    constructor
    · rintro (⟨j, earlier, hearlier, rfl, hdone⟩ | hadded)
      · refine ⟨j, _, (hlog j _).mpr ⟨earlier, hearlier, rfl⟩, ?_⟩
        split
        · rename_i hj
          subst hj
          obtain rfl := Option.some.inj (hrow.symm.trans hearlier)
          refine ⟨(after_event row).1, htried.after_processed_iff.mpr ?_⟩
          rw [htried.duplicate_iff.mpr hdone]
          exact nofun
        · exact ⟨rfl, hdone⟩
      · unfold adds at hadded
        split at hadded
        · rename_i hok
          obtain rfl := List.mem_singleton.mp hadded
          refine ⟨k, _, htried.get?_self hrow, (after_event row).1,
            htried.after_processed_iff.mpr ?_⟩
          rw [hok]
          exact nofun
        · cases hadded
    · rintro ⟨j, later, hlater, rfl, hdone⟩
      obtain ⟨earlier, hearlier, rfl⟩ := (hlog j later).mp hlater
      by_cases hj : j = k
      · subst hj
        obtain rfl := Option.some.inj (hrow.symm.trans hearlier)
        rw [if_pos rfl] at hdone ⊢
        rw [(after_event row).1]
        have hreply := htried.after_processed_iff.mp hdone
        by_cases hok : replyTo result = .ok
        · right
          unfold adds
          rw [if_pos hok]
          exact List.mem_singleton_self _
        · refine Or.inl ⟨j, row, hrow, rfl, htried.duplicate_iff.mp ?_⟩
          cases result with
          | error e => exact absurd rfl hreply
          | ok outcome => cases outcome with
            | duplicate => rfl
            | processed => exact absurd rfl hok
            | ignoredStale => exact absurd rfl hok
      · rw [if_neg hj] at hdone ⊢
        exact Or.inl ⟨j, earlier, hearlier, rfl, hdone⟩

/-- **Logging an event keeps the accounts**, and its row is there. -/
theorem Accounted.logEvent (h : Accounted ran inbox) (env : Env) {event : StripeEvent} {id : String}
    (hid : nonempty event.id = some id) (htype : nonempty (some event.type) ≠ none) :
    Accounted ran (inbox.logEvent env id event).2 ∧
      (∃ row, (inbox.logEvent env id event).2.log.get? (inbox.logEvent env id event).1 = some row ∧
        row.stripeEventId = id) ∧
      (inbox.logEvent env id event).2.db = inbox.db := by
  unfold Inbox.logEvent
  split
  · rename_i k row hfound
    obtain ⟨hrow, hsame⟩ := Table.find?_some hfound
    exact ⟨h, ⟨row, hrow, hsame⟩, rfl⟩
  · rename_i hnone
    have hfresh : ∀ k row, inbox.log.get? k = some row → row.stripeEventId ≠ id :=
      fun k row hrow => Table.find?_none hnone hrow
    refine ⟨⟨?_, ?_, h.once, ?_⟩, ⟨_, by rw [Table.get?_insert, if_pos rfl], rfl⟩, rfl⟩
    · exact Table.every_insert_iff.mpr ⟨⟨hid, rfl, htype⟩, h.holds⟩
    · intro j j' row row' hrow hrow' hsame
      rw [Table.get?_insert] at hrow hrow'
      split at hrow
      · rename_i hj
        split at hrow'
        · rename_i hj'
          rw [hj, hj']
        · obtain rfl := Option.some.inj hrow
          exact absurd hsame.symm (hfresh j' row' hrow')
      · split at hrow'
        · obtain rfl := Option.some.inj hrow'
          exact absurd hsame (hfresh j row hrow)
        · exact h.unique j j' row row' hrow hrow' hsame
    · intro id'
      rw [h.processed]
      constructor
      · rintro ⟨j, row, hrow, hsame, hdone⟩
        exact ⟨j, row, Table.get?_insert_of_some _ hrow, hsame, hdone⟩
      · rintro ⟨j, row, hrow, hsame, hdone⟩
        rw [Table.get?_insert] at hrow
        split at hrow
        · obtain rfl := Option.some.inj hrow
          exact absurd rfl hdone
        · exact ⟨j, row, hrow, hsame, hdone⟩

end Accounts

/-- **What a delivery comes to**: the run of the event's row, once it is logged. -/
theorem post_eq (hooks : WebhookSettings) (env : Env) {event : StripeEvent} {id : String}
    (hid : nonempty event.id = some id) (htype : nonempty (some event.type) ≠ none)
    {ran : List String} {inbox : Inbox} (h : Accounted ran inbox) :
    ∃ k row logged, Accounted ran logged ∧ logged.db = inbox.db ∧
      logged.log.get? k = some row ∧ row.stripeEventId = id ∧
      (∀ j other, inbox.log.get? j = some other → logged.log.get? j = some other) ∧
      inbox.post hooks env (.event event) =
        (replyTo (logged.attempt hooks env k (some event)).1,
          (logged.attempt hooks env k (some event)).2) := by
  obtain ⟨type, htype'⟩ := Option.ne_none_iff_exists'.mp htype
  obtain ⟨hlogged, ⟨row, hrow, hsame⟩, hdb⟩ := h.logEvent env hid htype
  refine ⟨_, row, _, hlogged, hdb, hrow, hsame, ?_, ?_⟩
  · intro j other hother
    unfold logEvent
    split
    · exact hother
    · exact Table.get?_insert_of_some _ hother
  · simp only [post, hid, htype']
    exact process_eq hooks env event hrow

/-- **A replay of listed rows keeps the accounts.** -/
theorem replayEach_accounted (hooks : WebhookSettings) (envs : ℕ → Env)
    {rows : List (ℕ × StripeWebhookEvent)} (hnodup : (rows.map Prod.fst).Nodup) {ran : List String}
    {inbox : Inbox} (hrows : ∀ r ∈ rows, inbox.log.get? r.1 = some r.2) (h : Accounted ran inbox) :
    Accounted
      (ran ++ ((inbox.replayEach hooks envs false rows).1.filter (·.outcome.isRan)).map
        (·.stripeEventId))
      (inbox.replayEach hooks envs false rows).2 := by
  induction rows generalizing inbox ran with
  | nil => simpa [replayEach] using h
  | cons r rows ih =>
    obtain ⟨hfresh, hnodup⟩ := List.nodup_cons.mp hnodup
    obtain ⟨hrow, hrows⟩ := List.forall_mem_cons.mp hrows
    have htried := attempt_tried hooks (envs r.1) none hrow
    -- The rows still to come are as they were listed.
    have hrest : ∀ r' ∈ rows,
        (inbox.attempt hooks (envs r.1) r.1 none).2.log.get? r'.1 = some r'.2 := by
      intro r' hr'
      rw [htried.get?_of_ne fun he => hfresh (he ▸ List.mem_map_of_mem hr')]
      exact hrows r' hr'
    have hmore := ih hnodup hrest (h.tried hrow htried)
    have hadds : adds r.2 (inbox.attempt hooks (envs r.1) r.1 none).1 =
        if (reportOf (inbox.attempt hooks (envs r.1) r.1 none).1).isRan then
          [r.2.stripeEventId] else [] := by
      unfold adds
      congr 1
      exact propext (replyTo_ok_iff _)
    rw [hadds, List.append_assoc] at hmore
    simp only [replayEach, replayRow_eq, List.filter_cons]
    split at hmore
    · rename_i hran
      simpa [hran] using hmore
    · rename_i hran
      simpa [hran] using hmore

/-! ## The report of a replay -/

/-- The report about a row, as it was listed. -/
def reportAbout (r : ℕ × StripeWebhookEvent) (outcome : ReplayOutcome) : ReplayedEvent :=
  { stripeEventId := r.2.stripeEventId
    eventType := r.2.eventType
    receivedAt := r.2.receivedAt
    previousError := r.2.error
    outcome }

/-- **What a report says of its row**, and what the replay left of the row. -/
structure Reported (envs : ℕ → Env) (after : Inbox) (r : ℕ × StripeWebhookEvent)
    (report : ReplayedEvent) : Prop where
  about : report = reportAbout r report.outcome
  written : ∃ result, report.outcome = reportOf result ∧
    after.log.get? r.1 = some (r.2.after (envs r.1) result)
  duplicate : report.outcome = .ran .duplicate ↔ r.2.processedAt ≠ none

theorem replayEach_reported (hooks : WebhookSettings) (envs : ℕ → Env)
    {rows : List (ℕ × StripeWebhookEvent)} (hnodup : (rows.map Prod.fst).Nodup)
    {inbox : Inbox} (hrows : ∀ r ∈ rows, inbox.log.get? r.1 = some r.2) :
    List.Forall₂ (Reported envs (inbox.replayEach hooks envs false rows).2) rows
      (inbox.replayEach hooks envs false rows).1 ∧
    (∀ k, k ∉ rows.map Prod.fst →
      (inbox.replayEach hooks envs false rows).2.log.get? k = inbox.log.get? k) ∧
    ((∀ report ∈ (inbox.replayEach hooks envs false rows).1, report.outcome.isRan = false) →
      (inbox.replayEach hooks envs false rows).2.db = inbox.db) := by
  induction rows generalizing inbox with
  | nil => exact ⟨.nil, fun _ _ => rfl, fun _ => rfl⟩
  | cons r rows ih =>
    obtain ⟨hfresh, hnodup⟩ := List.nodup_cons.mp hnodup
    obtain ⟨hrow, hrows⟩ := List.forall_mem_cons.mp hrows
    have htried := attempt_tried hooks (envs r.1) none hrow
    have hrest : ∀ r' ∈ rows,
        (inbox.attempt hooks (envs r.1) r.1 none).2.log.get? r'.1 = some r'.2 := by
      intro r' hr'
      rw [htried.get?_of_ne fun he => hfresh (he ▸ List.mem_map_of_mem hr')]
      exact hrows r' hr'
    obtain ⟨hreports, hframe, hdb⟩ := ih hnodup hrest
    simp only [replayEach, replayRow_eq]
    refine ⟨.cons ⟨rfl, ⟨_, rfl, ?_⟩, ?_⟩ hreports, ?_, ?_⟩
    · rw [hframe r.1 hfresh]
      exact htried.get?_self hrow
    · rw [← htried.duplicate_iff]
      exact (reportOf_injective.eq_iff : _ = reportOf (.ok .duplicate) ↔ _)
    · intro k hk
      have hne : k ≠ r.1 := fun he => hk (he ▸ List.mem_cons_self)
      rw [hframe k fun hmem => hk (List.mem_cons_of_mem _ hmem), htried.get?_of_ne hne]
    · intro hnone
      obtain ⟨hfirst, hnone⟩ := List.forall_mem_cons.mp hnone
      rw [hdb hnone]
      refine htried.db fun hok => ?_
      rw [(replyTo_ok_iff _).mp hok] at hfirst
      cases hfirst

/-- A dry run writes nothing. -/
theorem replayEach_dry (hooks : WebhookSettings) (envs : ℕ → Env)
    (rows : List (ℕ × StripeWebhookEvent)) (inbox : Inbox) :
    (inbox.replayEach hooks envs true rows).2 = inbox ∧
      (∀ listed ∈ (inbox.replayEach hooks envs true rows).1, listed.outcome.isRan = false) ∧
      List.Forall₂ (fun (r : ℕ × StripeWebhookEvent) (listed : ReplayedEvent) =>
          listed = reportAbout r listed.outcome ∧
          (listed.outcome = .ran .duplicate ↔ r.2.processedAt ≠ none))
        rows (inbox.replayEach hooks envs true rows).1 := by
  induction rows generalizing inbox with
  | nil => exact ⟨rfl, List.forall_mem_nil _, .nil⟩
  | cons r rows ih =>
    obtain ⟨hinbox, hnone, hlisted⟩ := ih inbox
    simp only [replayEach, replayRow, if_pos]
    refine ⟨hinbox, List.forall_mem_cons.mpr ⟨?_, hnone⟩, .cons ⟨rfl, ?_⟩ hlisted⟩
    · split <;> rfl
    · by_cases hdone : r.2.processedAt ≠ none
      · rw [if_pos hdone]
        exact iff_of_true rfl hdone
      · rw [if_neg hdone]
        exact iff_of_false nofun hdone

end Inbox

/-- **The report of a replay**, whatever is asked for.  There is one report for each listed row, in
the order of the list; it says what the replay left on the row; a row that was processed is
reported as a duplicate and nothing else is.  The other rows are left alone, and so is the
database when nothing ran to the end.  A dry run of the same replay writes nothing, lists the
same rows and tells the same duplicates. -/
theorem replay_report (hooks : WebhookSettings) (envs : ℕ → Env) (eventIds : List String)
    (unprocessed : Bool) (inbox : Inbox) :
    ∃ reports after listed,
      inbox.replayWebhookEvents hooks envs eventIds unprocessed false = (reports, after) ∧
      inbox.replayWebhookEvents hooks envs eventIds unprocessed true = (listed, inbox) ∧
      List.Forall₂ (Inbox.Reported envs after) (inbox.replayableEvents eventIds unprocessed)
        reports ∧
      (∀ k, k ∉ (inbox.replayableEvents eventIds unprocessed).map Prod.fst →
        after.log.get? k = inbox.log.get? k) ∧
      ((∀ report ∈ reports, report.outcome.isRan = false) → after.db = inbox.db) ∧
      List.Forall₂ (fun r (l : ReplayedEvent) => l = Inbox.reportAbout r l.outcome ∧
          (l.outcome = .ran .duplicate ↔ r.2.processedAt ≠ none))
        (inbox.replayableEvents eventIds unprocessed) listed := by
  have hlisted : ∀ r ∈ inbox.replayableEvents eventIds unprocessed,
      inbox.log.get? r.1 = some r.2 := by
    intro r hr
    exact (Table.mem_select.mp ((orderBy_perm _ _).mem_iff.mp hr)).1
  have hnodup : ((inbox.replayableEvents eventIds unprocessed).map Prod.fst).Nodup :=
    orderBy_nodup Table.select_nodup
  obtain ⟨hreports, hframe, hdb⟩ := Inbox.replayEach_reported hooks envs hnodup hlisted
  obtain ⟨hdry, -, hsame⟩ := Inbox.replayEach_dry hooks envs
    (inbox.replayableEvents eventIds unprocessed) inbox
  exact ⟨_, _, _, rfl, Prod.ext rfl hdry, hreports, hframe, hdb, hsame⟩

/-! ## Histories -/

/-- A call on the log, or whatever else the service does to the database. -/
inductive InboxCall
  | post (hooks : WebhookSettings) (env : Env) (request : Verified)
  | replay (hooks : WebhookSettings) (envs : ℕ → Env) (eventIds : List String)
      (unprocessed dryRun : Bool)
  | elsewhere (run : Db → Db)

/-- The ids of the events that a call ran to the end, as its answer tells, and what it left. -/
def InboxCall.run : InboxCall → Inbox → List String × Inbox
  | post hooks env (.event event), inbox =>
    let answered := inbox.post hooks env (.event event)
    (if answered.1 = .ok then (nonempty event.id).toList else [], answered.2)
  | post hooks env request, inbox => ([], (inbox.post hooks env request).2)
  | replay hooks envs eventIds unprocessed dryRun, inbox =>
    let replayed := inbox.replayWebhookEvents hooks envs eventIds unprocessed dryRun
    ((replayed.1.filter (·.outcome.isRan)).map (·.stripeEventId), replayed.2)
  | elsewhere run, inbox => ([], { inbox with db := run inbox.db })

/-- A history of calls. -/
def runInbox : List InboxCall → Inbox → List String × Inbox
  | [], inbox => ([], inbox)
  | call :: calls, inbox =>
    let first := call.run inbox
    let rest := runInbox calls first.2
    (first.1 ++ rest.1, rest.2)

namespace Inbox
variable {ran : List String} {inbox : Inbox}

/-- **A delivery keeps the accounts.** -/
theorem Accounted.post (h : Accounted ran inbox) (hooks : WebhookSettings) (env : Env)
    (event : StripeEvent) :
    Accounted
      (ran ++ if (inbox.post hooks env (.event event)).1 = .ok then (nonempty event.id).toList
        else [])
      (inbox.post hooks env (.event event)).2 := by
  cases hid : nonempty event.id with
  | none => simpa [Inbox.post, hid] using h
  | some id =>
    by_cases htype : nonempty (some event.type) = none
    · simpa [Inbox.post, hid, htype] using h
    · obtain ⟨k, row, logged, hlogged, -, hrow, rfl, -, hpost⟩ := post_eq hooks env hid htype h
      rw [hpost]
      exact hlogged.tried hrow (attempt_tried hooks env (some event) hrow)

/-- **Every call keeps the accounts.** -/
theorem Accounted.call (h : Accounted ran inbox) (call : InboxCall) :
    Accounted (ran ++ (call.run inbox).1) (call.run inbox).2 := by
  cases call with
  | post hooks env request =>
    cases request with
    | event event => exact h.post hooks env event
    | badSignature | crashed =>
      show Accounted (ran ++ []) inbox
      rw [List.append_nil]
      exact h
  | elsewhere run =>
    show Accounted (ran ++ []) { inbox with db := run inbox.db }
    rw [List.append_nil]
    exact ⟨h.holds, h.unique, h.once, h.processed⟩
  | replay hooks envs eventIds unprocessed dryRun =>
    have hlisted : ∀ r ∈ inbox.replayableEvents eventIds unprocessed,
        inbox.log.get? r.1 = some r.2 := by
      intro r hr
      exact (Table.mem_select.mp ((orderBy_perm _ _).mem_iff.mp hr)).1
    cases dryRun with
    | false =>
      exact replayEach_accounted hooks envs (orderBy_nodup Table.select_nodup) hlisted h
    | true =>
      obtain ⟨hinbox, hnone, -⟩ := replayEach_dry hooks envs
        (inbox.replayableEvents eventIds unprocessed) inbox
      have hnil : ((InboxCall.replay hooks envs eventIds unprocessed true).run inbox).1 = [] :=
        List.map_eq_nil_iff.mpr (List.filter_eq_nil_iff.mpr fun l hl => by rw [hnone l hl]; exact nofun)
      have hsame : ((InboxCall.replay hooks envs eventIds unprocessed true).run inbox).2 = inbox :=
        hinbox
      rw [hnil, hsame, List.append_nil]
      exact h

theorem Accounted.run (h : Accounted ran inbox) (calls : List InboxCall) :
    Accounted (ran ++ (runInbox calls inbox).1) (runInbox calls inbox).2 := by
  induction calls generalizing ran inbox with
  | nil => simpa [runInbox] using h
  | cons call calls ih =>
    have hrest := ih (h.call call)
    rw [List.append_assoc] at hrest
    exact hrest

end Inbox

/-- **Every event runs to the end once at most**, over every history of deliveries, redeliveries and
replays, whatever handlers are configured from call to call and whatever else the service does.
The processed rows are those of the events that ran.  The next delivery of any event is answered as
a duplicate exactly if the event ran before; it is acknowledged exactly if the event's row is
processed afterwards; and unless it runs now, it leaves the database alone. -/
theorem events_run_once (db : Db) (calls : List InboxCall) :
    ∃ ran inbox, runInbox calls { db } = (ran, inbox) ∧ ran.Nodup ∧
      (∀ id, id ∈ ran ↔ ∃ k row, inbox.log.get? k = some row ∧ row.stripeEventId = id ∧
        row.processedAt ≠ none) ∧
      ∀ hooks env event id, nonempty event.id = some id → nonempty (some event.type) ≠ none →
        ∃ reply later, inbox.post hooks env (.event event) = (reply, later) ∧
          (reply = .duplicate ↔ id ∈ ran) ∧
          (reply ≠ .error ↔ ∃ k row, later.log.get? k = some row ∧ row.stripeEventId = id ∧
            row.processedAt ≠ none) ∧
          (reply ≠ .ok → later.db = inbox.db) := by
  have haccounts := (Inbox.Accounted.start db).run calls
  rw [List.nil_append] at haccounts
  refine ⟨_, _, rfl, haccounts.once, haccounts.processed, fun hooks env event id hid htype => ?_⟩
  obtain ⟨k, row, logged, hlogged, hdb, hrow, rfl, -, hpost⟩ :=
    Inbox.post_eq hooks env hid htype haccounts
  have htried := Inbox.attempt_tried hooks env (some event) hrow
  refine ⟨_, _, hpost, ?_, ?_, ?_⟩
  · rw [hlogged.mem_iff hrow, ← htried.duplicate_iff]
    exact replyTo_duplicate_iff _
  · rw [← htried.after_processed_iff]
    constructor
    · exact fun hdone => ⟨k, _, htried.get?_self hrow, (Inbox.after_event row).1, hdone⟩
    · rintro ⟨j, later, hlater, hsame, hdone⟩
      have hk := htried.get?_self hrow
      obtain rfl := (hlogged.tried hrow htried).unique j k later _ hlater hk
        (by rw [hsame, (Inbox.after_event row).1])
      obtain rfl := Option.some.inj (hlater.symm.trans hk)
      exact hdone
  · intro hreply
    rw [htried.db hreply, hdb]

/-- **Replaying a row does what delivering its event again would do**, for every row of every log
that deliveries and replays have written: the same outcome, the same database and the same log. -/
theorem replay_is_redelivery (db : Db) (calls : List InboxCall) (k : ℕ) (row : StripeWebhookEvent)
    (hrow : (runInbox calls { db }).2.log.get? k = some row) (hooks : WebhookSettings) (env : Env) :
    ∃ result after,
      (runInbox calls { db }).2.post hooks env (.event row.payload) = (replyTo result, after) ∧
      (runInbox calls { db }).2.replayRow hooks (fun _ => env) false (k, row) =
        (Inbox.reportAbout (k, row) (reportOf result), after) := by
  have haccounts := (Inbox.Accounted.start db).run calls
  generalize runInbox calls { db } = history at *
  have hholds := haccounts.holds k row hrow
  have htype : nonempty (some row.payload.type) ≠ none := by
    rw [← hholds.eventType]
    exact hholds.typed
  -- The event's row is found again, and nothing is logged.
  have hfound : history.2.log.find? (fun other => other.stripeEventId = row.stripeEventId) =
      some (k, row) :=
    Table.find?_eq_some_of_unique hrow rfl fun j other hother hsame =>
      haccounts.unique j k other row hother hrow hsame
  have hlogged : history.2.logEvent env row.stripeEventId row.payload = (k, history.2) := by
    simp only [Inbox.logEvent, hfound]
  have happly : history.2.attempt hooks env k (some row.payload) =
      history.2.attempt hooks env k none := by
    simp only [Inbox.attempt, Inbox.applyStoredEvent, hrow, Option.getD_some, Option.getD_none]
  obtain ⟨type, htype⟩ := Option.ne_none_iff_exists'.mp htype
  refine ⟨(history.2.attempt hooks env k none).1, (history.2.attempt hooks env k none).2, ?_, ?_⟩
  · simp only [Inbox.post, hholds.id, htype, hlogged]
    rw [Inbox.process_eq hooks env row.payload hrow, happly]
  · exact Inbox.replayRow_eq hooks (fun _ => env) (k, row) history.2

/-- A deletion that the provider reports. -/
def deletionEvent : StripeEvent where
  id := some "evt_1"
  type := "customer.subscription.deleted"
  created := some 10
  object := { subscription := { id := some "sub_1" } }

/-- A deployment whose entry for another type is no handler. -/
def brokenHooks : WebhookSettings where
  stripeWebhookHandlers := [("invoice.paid", .other)]

/-- An event that failed on a broken deployment is taken up once that is repaired. -/
theorem replay_is_redelivery_repaired :
    let history := runInbox [.post brokenHooks (Env.plain 11000000) (.event deletionEvent)] { db := {} }
    ∃ row, history.2.log.get? 0 = some row ∧ history.1 = [] ∧ ∃ result after,
      history.2.post {} (Env.plain 12000000) (.event row.payload) = (replyTo result, after) ∧
      history.2.replayRow {} (fun _ => Env.plain 12000000) false (0, row) =
        (Inbox.reportAbout (0, row) (reportOf result), after) ∧
      after.Processed 0 := by
  intro history
  have hrow : (history.2.log.get? 0).isSome := by decide +kernel
  obtain ⟨row, hrow⟩ := Option.isSome_iff_exists.mp hrow
  obtain ⟨result, after, hpost, hreplay⟩ := replay_is_redelivery {}
    [.post brokenHooks (Env.plain 11000000) (.event deletionEvent)] 0 row hrow {} (Env.plain 12000000)
  have hdone : ∃ row ∈ history.2.log.get? 0,
      (history.2.post {} (Env.plain 12000000) (.event row.payload)).2.Processed 0 := by decide +kernel
  obtain ⟨row', hrow', hdone⟩ := hdone
  obtain rfl := Option.some.inj (hrow.symm.trans hrow')
  refine ⟨row, hrow, by decide +kernel, result, after, hpost, hreplay, ?_⟩
  have hafter : after = (history.2.post {} (Env.plain 12000000) (.event row.payload)).2 := by
    rw [hpost]
  rw [hafter]
  exact hdone

end StapelBilling
