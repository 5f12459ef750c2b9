import StapelBilling.EventRace
import StapelBilling.Reconcile

/-! # A webhook during a reconciliation

The sweep reads a row, asks the provider, and saves what differs; an event about a change
that the answer does not know yet may be handled at any moment after the call.  The sweep
writes the older answer over what the event left, or stamps the row with a later clock than
the event's, and the event is dropped then and whenever it is delivered again.
-/
namespace StapelBilling
open Store

/-! ## The steps -/

/-- The steps of the sweep on one row, and of the handler. -/
inductive SweepStep
  | readRow | fetch | repair | readEvent | saveEvent
  deriving DecidableEq

/-- The database, and what the sweep and the handler hold in memory. -/
structure SweepRace where
  db : Db
  row : Option (ℕ × Subscription) := none
  fetched : Fetched := .failed
  planned : Option (ℕ × Edited) := none

/-- A reconciliation of one subscription and an event about it. -/
structure SweepCase where
  id : String
  env : Env
  dryRun : Bool
  answer : Fetched
  handlerEnv : Env
  event : LifecycleEvent

/-- One step. -/
def SweepRace.step (c : SweepCase) (race : SweepRace) : SweepStep → SweepRace
  | .readRow => { race with row := (reconcilableSubscriptions [c.id] race.db).head? }
  | .fetch => { race with fetched := c.answer }
  | .repair =>
    match race.row with
    | none => race
    | some (k, sub) => { race with db := repairSubscription c.env c.dryRun k sub race.fetched race.db }
  | .readEvent => { race with
      db := (resolveLocalSubscription c.event.object race.db).2
      planned := c.event.plan c.handlerEnv race.db }
  | .saveEvent =>
    match race.planned with
    | none => race
    | some (k, edited) => { race with db := applyLifecycle k edited race.db }

/-- The database after a schedule. -/
def SweepCase.run (c : SweepCase) (schedule : List SweepStep) (db : Db) : Db :=
  (schedule.foldl (SweepRace.step c) { db }).db

/-! ## What a repair leaves -/

/-- What the sweep makes of a row it has read, as it saves it. -/
def Fetched.repairs (fetched : Fetched) (env : Env) (dryRun : Bool) (sub : Subscription) : Edited :=
  match fetched, dryRun with
  | .found obj, false =>
    ((advanceProviderClock (some env.now) (reconciledSubscription obj sub).1).1,
      (reconciledSubscription obj sub).2 ++
        (advanceProviderClock (some env.now) (reconciledSubscription obj sub).1).2)
  | _, _ => (sub, [])

/-- The value the sweep takes a column of the row to have. -/
def Fetched.value (fetched : Fetched) (dryRun : Bool) (sub : Subscription) (f : SubscriptionField) :
    ColumnValue :=
  match fetched, dryRun with
  | .found obj, false => (obj.states f).getD (f.read sub)
  | _, _ => f.read sub

section Repairs
variable {fetched : Fetched} {env : Env} {dryRun : Bool} {sub : Subscription} {f : SubscriptionField}

theorem Fetched.repairs_names (fetched : Fetched) (env : Env) (dryRun : Bool) (sub : Subscription) :
    Edited.Names sub (fetched.repairs env dryRun sub) := by
  unfold repairs
  split
  · exact (reconciledSubscription_names _ sub).append (advanceProviderClock_names _ _)
  · exact Edited.Names.refl sub

theorem Fetched.repairs_read (hf : f ∈ reconciledFields) :
    f.read (fetched.repairs env dryRun sub).1 = fetched.value dryRun sub f := by
  unfold repairs value
  split
  · rw [← reconciledSubscription_read _ sub hf, advanceProviderClock_fst]
    cases f <;> first | rfl | exact absurd hf (by decide)
  · rfl

/-- The sweep saves what it changes. -/
theorem Fetched.mem_repairs (hf : f ∈ reconciledFields) : f ∈ (fetched.repairs env dryRun sub).2 ↔
    fetched.value dryRun sub f ≠ f.read sub := by
  unfold repairs value
  split
  · rename_i obj
    have hclock : f ∉ (advanceProviderClock (some env.now) (reconciledSubscription obj sub).1).2 := by
      intro hmem
      rw [advanceProviderClock_fields hmem] at hf
      exact absurd hf (by decide)
    rw [List.mem_append, or_iff_left hclock, mem_reconciledSubscription obj sub hf]
  · simp

/-- **What a repair writes.** -/
theorem repairSubscription_get? (env : Env) (dryRun : Bool) (k : ℕ) (sub : Subscription)
    (fetched : Fetched) (db : Db) (j : ℕ) :
    (repairSubscription env dryRun k sub fetched db).subscriptions.get? j =
      if j = k then (db.subscriptions.get? j).map fun row => (fetched.repairs env dryRun sub).2.foldl
        (SubscriptionField.write (fetched.repairs env dryRun sub).1) row
      else db.subscriptions.get? j := by
  have hsame : ∀ (row : Subscription), db.subscriptions.get? j = if j = k then
      (db.subscriptions.get? j).map fun r => ([] : List SubscriptionField).foldl
        (SubscriptionField.write row) r else db.subscriptions.get? j := by
    intro row
    split
    · exact Option.map_id'.symm
    · rfl
  cases fetched with
  | failed => exact hsame sub
  | missing => exact hsame sub
  | found obj =>
    cases dryRun with
    | true => exact hsame sub
    | false =>
      have hsave : ∀ (after : Subscription) (fields : List SubscriptionField),
          (saveSubscription k after fields db).subscriptions.get? j = if j = k then
            (db.subscriptions.get? j).map fun row =>
              fields.foldl (SubscriptionField.write after) row
            else db.subscriptions.get? j := fun after fields => Table.get?_modify _ _ _ _
      simp only [repairSubscription, Fetched.repairs, Bool.false_eq_true, if_false]
      split
      · rw [applyLifecycle_subscriptions, hsave]
      · rename_i hnone
        rw [not_not] at hnone
        split
        · rw [hsave, hnone, List.nil_append]
        · rename_i hclock
          rw [not_not] at hclock
          rw [hnone, hclock]
          exact hsame _

end Repairs

/-! ## What an event saves -/

section Saves
variable {obj : SubscriptionObject} {sub : Subscription}

theorem start_of_mem (h : .currentPeriodStart ∈ (applyStripePeriod obj sub).2) :
    (stripePeriod obj).1 ≠ sub.currentPeriodStart := by
  intro heq
  simp only [applyStripePeriod, heq, ne_eq, not_true_eq_false, and_false, if_false] at h
  split at h <;> simp at h

theorem finish_of_mem (h : .currentPeriodEnd ∈ (applyStripePeriod obj sub).2) :
    (stripePeriod obj).2 ≠ sub.currentPeriodEnd := by
  intro heq
  by_cases hstart : (stripePeriod obj).1 ≠ none ∧ (stripePeriod obj).1 ≠ sub.currentPeriodStart
  · simp [applyStripePeriod, heq, hstart] at h
  · simp only [applyStripePeriod, if_neg hstart, heq, ne_eq, not_true_eq_false, and_false,
      if_false] at h
    exact absurd h List.not_mem_nil

theorem flag_of_mem (h : .cancelAtPeriodEnd ∈ (applyStripeCancellation obj sub).2) :
    obj.cancelAtPeriodEnd ≠ some sub.cancelAtPeriodEnd := by
  intro heq
  simp only [applyStripeCancellation, heq, ne_eq, not_true_eq_false, if_false] at h
  have hmem := cancelledAt_fields sub (some sub.cancelAtPeriodEnd) h
  simp at hmem

theorem cancelledAt_of_mem (h : .cancelledAt ∈ (applyStripeCancellation obj sub).2) :
    cancelledAtAfter obj sub ≠ sub.cancelledAt := by
  have hlast : ∀ (middle : Subscription) (first : List SubscriptionField) (cancelled : Option Time)
      (flag : Option Bool), .cancelledAt ∉ first →
      .cancelledAt ∈ (if cancelled ≠ none ∧ cancelled ≠ middle.cancelledAt then
          (({ middle with cancelledAt := cancelled }, first ++ [.cancelledAt]) : Edited)
        else if cancelled = none ∧ flag = some false ∧ middle.cancelledAt ≠ none then
          ({ middle with cancelledAt := none }, first ++ [.cancelledAt])
        else (middle, first)).2 → cancelled ≠ middle.cancelledAt ∧
          (cancelled = none → (if flag = some false then none else middle.cancelledAt) ≠
            middle.cancelledAt) := by
    intro middle first cancelled flag hfirst hmem
    split at hmem
    · rename_i hdiffers
      exact ⟨hdiffers.2, fun hnone => absurd hnone hdiffers.1⟩
    · split at hmem
      · rename_i hundone
        refine ⟨hundone.1.trans_ne hundone.2.2.symm, fun _ => ?_⟩
        rw [if_pos hundone.2.1]
        exact hundone.2.2.symm
      · exact absurd hmem hfirst
  have hboth : epochToDatetime obj.canceledAt ≠ sub.cancelledAt ∧
      (epochToDatetime obj.canceledAt = none →
        (if obj.cancelAtPeriodEnd = some false then none else sub.cancelledAt) ≠
          sub.cancelledAt) := by
    simp only [applyStripeCancellation] at h
    cases hflag : obj.cancelAtPeriodEnd with
    | none =>
      rw [hflag] at h
      exact hlast sub [] _ none List.not_mem_nil h
    | some b =>
      rw [hflag] at h
      by_cases hb : b ≠ sub.cancelAtPeriodEnd
      · simp only [if_pos hb] at h
        exact hlast { sub with cancelAtPeriodEnd := b } [.cancelAtPeriodEnd] _ (some b) (by decide) h
      · simp only [if_neg hb] at h
        exact hlast sub [] _ (some b) List.not_mem_nil h
  unfold cancelledAtAfter
  split
  · rename_i t ht
    rw [← ht]
    exact hboth.1
  · rename_i hnone
    exact hboth.2 hnone

/-- The columns an event saves whether or not they change. -/
def LifecycleEvent.AlwaysSaves : LifecycleEvent → SubscriptionField → Prop
  | .updated _, f => f = .status
  | .deleted _, f => f = .status ∨ f = .cancelledAt ∨ f = .cancelAtPeriodEnd

variable {env : Env} {e : LifecycleEvent} {f : SubscriptionField} {v : ColumnValue}

/-- **What an event saves**: the columns it always saves, and those where it states a value
the row it has read does not have. -/
theorem LifecycleEvent.mem_edit_iff (h : v ∈ e.states f) :
    f ∈ (e.edit env sub).2 ↔ e.AlwaysSaves f ∨ f.read sub ≠ v := by
  constructor
  · intro hmem
    -- the clock is no field of the report
    have hclock : ∀ row : Subscription, f ∉ (advanceProviderClock e.time row).2 := by
      intro row hf
      have hfield := advanceProviderClock_fields hf
      subst hfield
      exact absurd (LifecycleEvent.mem_reconciledFields h) (by decide)
    -- a bound of the period is saved only where it differs
    have hperiod : ∀ {row : Subscription}, f ∈ (applyStripePeriod e.object row).2 →
        row.currentPeriodStart = sub.currentPeriodStart →
        row.currentPeriodEnd = sub.currentPeriodEnd → v ∈ e.object.states f → f.read sub ≠ v := by
      intro row hf hstart hend hv
      rcases applyStripePeriod_fields hf with rfl | rfl
      · obtain ⟨t, ht, rfl⟩ := Option.map_eq_some_iff.mp hv
        have hne := start_of_mem hf
        rw [ht, hstart] at hne
        exact fun heq => hne (ColumnValue.time.inj heq).symm
      · obtain ⟨t, ht, rfl⟩ := Option.map_eq_some_iff.mp hv
        have hne := finish_of_mem hf
        rw [ht, hend] at hne
        exact fun heq => hne (ColumnValue.time.inj heq).symm
    cases e with
    | updated event =>
      simp only [edit, updatedSubscription, List.mem_cons, List.mem_append] at hmem
      rcases hmem with hstatus | (hmem | hmem) | hmem
      · exact Or.inl hstatus
      · exact Or.inr (hperiod hmem rfl rfl h)
      · refine Or.inr ?_
        rcases applyStripeCancellation_fields hmem with rfl | rfl
        · obtain ⟨b, hb, rfl⟩ := Option.map_eq_some_iff.mp h
          have hne := flag_of_mem hmem
          rw [applyStripePeriod_fst, hb] at hne
          exact fun heq => hne (congrArg some (ColumnValue.flag.inj heq).symm)
        · have hne := cancelledAt_of_mem hmem
          rw [SubscriptionObject.states_cancelledAt h]
          rw [applyStripePeriod_fst] at hne
          exact fun heq => hne (ColumnValue.time.inj heq).symm
      · exact absurd hmem (hclock _)
    | deleted event =>
      simp only [edit, deletedSubscription, List.mem_append] at hmem
      rcases hmem with (hmem | hmem) | hmem
      · exact Or.inl (by simpa [AlwaysSaves] using hmem)
      · refine Or.inr (hperiod hmem rfl rfl ?_)
        rcases applyStripePeriod_fields hmem with rfl | rfl <;> exact h
      · exact absurd hmem (hclock _)
  · intro hsaves
    by_contra hnot
    rcases hsaves with halways | hne
    · cases e with
      | updated event =>
        rw [show f = .status from halways] at hnot
        exact hnot (LifecycleEvent.status_mem_edit sub env _)
      | deleted event =>
        refine hnot (List.mem_append_left _ (List.mem_append_left _ ?_))
        rcases halways with rfl | rfl | rfl <;> decide
    · refine hne ?_
      rw [← (e.edit_names env sub).rest f hnot]
      exact LifecycleEvent.edit_states h

end Saves

/-! ## The three orders -/

/-- The row's columns are what the event states. -/
def LifecycleEvent.MirroredBy (e : LifecycleEvent) (row : Subscription) : Prop :=
  ∀ f, ∀ v ∈ e.states f, f.read row = v

section Mirrors
variable {env : Env} {e : LifecycleEvent} {row current : Subscription} {f : SubscriptionField}
  {v : ColumnValue}

theorem LifecycleEvent.mirroredBy_edit : e.MirroredBy (e.edit env row).1 :=
  fun _ _ hv => edit_states hv

/-- A redelivery of what a row mirrors changes nothing the event states. -/
theorem LifecycleEvent.MirroredBy.receive (h : e.MirroredBy row) :
    e.MirroredBy (e.receive env row) := by
  unfold LifecycleEvent.receive
  split
  · exact h
  · exact mirroredBy_edit

/-- What a save decided on one row leaves another with. -/
theorem LifecycleEvent.patch_read (h : ¬ e.IsStale row) (hv : v ∈ e.states f) :
    f.read (e.patch env row current) = v ↔
      e.AlwaysSaves f ∨ f.read row ≠ v ∨ f.read current = v := by
  rw [patch, if_neg h, SubscriptionField.read_foldl_write, edit_states hv, ← or_assoc,
    ← @mem_edit_iff _ env _ _ _ hv]
  by_cases hmem : f ∈ (e.edit env row).2
  · simp [hmem]
  · simp [hmem]

/-- Staleness is a matter of status and clock. -/
theorem LifecycleEvent.isStale_of_status_clock {row' : Subscription} (hstatus : row'.status = row.status)
    (hclock : row'.lastProviderEventAt = row.lastProviderEventAt) : e.IsStale row' ↔ e.IsStale row := by
  unfold IsStale isStaleLifecycleEvent
  rw [hstatus, hclock]

end Mirrors

namespace SweepCase
variable (c : SweepCase) (row : Subscription)

/-- The row as the sweep leaves it, as far as staleness goes. -/
def stamped : Subscription :=
  match c.answer, c.dryRun with
  | .found obj, false => { row with
      status := (mapStripeStatus obj.status (some row.status)).getD row.status
      lastProviderEventAt := later row.lastProviderEventAt (some c.env.now) }
  | _, _ => row

/-- The sweep takes every column the event states to have that value. -/
def Agrees : Prop :=
  ∀ f, ∀ v ∈ c.event.states f, c.answer.value c.dryRun row f = v

/-- The event survives the sweep: in each order, what keeps the sweep from undoing it. -/
structure Survives (schedule : List SweepStep) : Prop where
  handledAfter : schedule = [.readRow, .fetch, .repair, .readEvent, .saveEvent] →
    c.event.IsStale (c.stamped row) → c.Agrees row
  handledAcross : schedule = [.readRow, .fetch, .readEvent, .repair, .saveEvent] →
    if c.event.IsStale row then c.Agrees row
    else ∀ f, ∀ v ∈ c.event.states f,
      c.event.AlwaysSaves f ∨ f.read row ≠ v ∨ c.answer.value c.dryRun row f = v
  handledWithin : schedule = [.readRow, .fetch, .readEvent, .saveEvent, .repair] →
    if c.event.IsStale row then c.Agrees row
    else ∀ f, ∀ v ∈ c.event.states f,
      c.answer.value c.dryRun row f = f.read row ∨ c.answer.value c.dryRun row f = v

variable {c row} {k : ℕ} {db : Db}

theorem isStale_repairs :
    c.event.IsStale (c.answer.repairs c.env c.dryRun row).1 ↔ c.event.IsStale (c.stamped row) := by
  refine LifecycleEvent.isStale_of_status_clock ?_ ?_
  · unfold Fetched.repairs stamped
    split
    · rw [advanceProviderClock_fst, reconciledSubscription_fst]
    · rfl
  · unfold Fetched.repairs stamped
    split
    · rw [advanceProviderClock_fst, reconciledSubscription_fst]
    · rfl

theorem mirroredBy_repairs :
    c.event.MirroredBy (c.answer.repairs c.env c.dryRun row).1 ↔ c.Agrees row := by
  refine forall_congr' fun f => forall₂_congr fun v hv => ?_
  rw [Fetched.repairs_read (LifecycleEvent.mem_reconciledFields hv)]

/-- What the sweep decided on one row leaves a row that mirrors the event with. -/
theorem repaired_read {current : Subscription} (h : c.event.MirroredBy current)
    {f : SubscriptionField} {v : ColumnValue} (hv : v ∈ c.event.states f) :
    f.read ((c.answer.repairs c.env c.dryRun row).2.foldl
      (SubscriptionField.write (c.answer.repairs c.env c.dryRun row).1) current) = v ↔
      c.answer.value c.dryRun row f = f.read row ∨ c.answer.value c.dryRun row f = v := by
  have hf := LifecycleEvent.mem_reconciledFields hv
  have hmem := @Fetched.mem_repairs c.answer c.env c.dryRun row f hf
  rw [SubscriptionField.read_foldl_write, Fetched.repairs_read hf, h f v hv]
  by_cases hsame : c.answer.value c.dryRun row f = f.read row
  · rw [if_neg fun hin => hmem.mp hin hsame]
    exact ⟨fun _ => Or.inl hsame, fun _ => rfl⟩
  · rw [if_pos (hmem.mpr hsame), or_iff_right hsame]

/-- The sweep reads the row it was asked to reconcile. -/
theorem reconcilable_head (h : db.BoundTo c.id k) (hk : db.subscriptions.get? k = some row) :
    (reconcilableSubscriptions [c.id] db).head? = some (k, row) := by
  obtain ⟨sub, hsub, hid⟩ := h.row
  obtain rfl := Option.some.inj (hk.symm.trans hsub)
  have hone : reconcilableSubscriptions [c.id] db = [(k, row)] := by
    refine Table.select_eq_singleton hk ⟨?_, fun _ => ⟨c.id, hid, List.mem_singleton_self _⟩⟩ ?_
    · rw [hid, nonempty_of_ne h.named]
      nofun
    · rintro j other hj ⟨-, hids⟩
      obtain ⟨id, hother, hmem⟩ := hids (List.cons_ne_nil _ _)
      rw [List.mem_singleton.mp hmem] at hother
      exact h.only j other hj hother
  rw [hone, List.head?_cons]

/-! ## The final row -/

/-- After the call to the provider the repair falls before, between or after the handler's two
steps. -/
theorem orders {schedule : List SweepStep}
    (h : Interleaving [.readRow, .fetch, .repair] [.readEvent, .saveEvent] schedule)
    (hafter : [SweepStep.fetch, .readEvent].Sublist schedule) :
    schedule = [.readRow, .fetch, .repair, .readEvent, .saveEvent] ∨
      schedule = [.readRow, .fetch, .readEvent, .repair, .saveEvent] ∨
      schedule = [.readRow, .fetch, .readEvent, .saveEvent, .repair] := by
  cases h with
  | right h =>
    -- Read before the sweep has begun, the event is not read after the call.
    cases hafter with
    | cons _ hafter =>
      rcases h.mem (hafter.subset (List.mem_cons_of_mem _ (List.mem_singleton_self _))) with hmem | hmem
      · exact absurd hmem (by decide)
      · exact absurd hmem (by decide)
  | left h =>
    rcases h.pairs with rfl | rfl | rfl | rfl | rfl | rfl
    · exact Or.inl rfl
    · exact Or.inr (Or.inl rfl)
    · exact Or.inr (Or.inr rfl)
    · exact absurd hafter (by decide)
    · exact absurd hafter (by decide)
    · exact absurd hafter (by decide)

/-- A repair keeps the row the subscription's. -/
theorem bound_repair (h : db.BoundTo c.id k) {current : Subscription}
    (hcurrent : db.subscriptions.get? k = some current) (hrow : row.stripeSubscriptionId = some c.id) :
    (repairSubscription c.env c.dryRun k row c.answer db).subscriptions.get? k =
      some ((c.answer.repairs c.env c.dryRun row).2.foldl
        (SubscriptionField.write (c.answer.repairs c.env c.dryRun row).1) current) ∧
    (repairSubscription c.env c.dryRun k row c.answer db).BoundTo c.id k := by
  have hget := repairSubscription_get? c.env c.dryRun k row c.answer db
  have hk := hget k
  rw [if_pos rfl, hcurrent, Option.map_some] at hk
  refine ⟨hk, h.of_get? (fun j hj => by rw [hget, if_neg hj]) hk ?_⟩
  obtain ⟨sub, hsub, hid⟩ := h.row
  obtain rfl := Option.some.inj (hcurrent.symm.trans hsub)
  refine SubscriptionField.foldl_write_id _ ?_ hid
  unfold Fetched.repairs
  split
  · rw [advanceProviderClock_fst, reconciledSubscription_fst]
    exact hrow
  · exact hrow

/-- **Handled after the repair.** -/
theorem run_after (h : db.BoundTo c.id k) (habout : c.event.object.id = some c.id)
    (hk : db.subscriptions.get? k = some row) (hrow : row.stripeSubscriptionId = some c.id) :
    (c.run [.readRow, .fetch, .repair, .readEvent, .saveEvent] db).subscriptions.get? k =
      some (c.event.receive c.handlerEnv (c.answer.repairs c.env c.dryRun row).1) ∧
    (c.run [.readRow, .fetch, .repair, .readEvent, .saveEvent] db).BoundTo c.id k := by
  obtain ⟨hrepaired, hbound⟩ := bound_repair h hk hrow
  rw [(c.answer.repairs_names c.env c.dryRun row).saved] at hrepaired
  have hrun : c.run [.readRow, .fetch, .repair, .readEvent, .saveEvent] db =
      c.event.handle c.handlerEnv (repairSubscription c.env c.dryRun k row c.answer db) := by
    rw [← LifecycleEvent.plan_save hbound c.handlerEnv habout]
    simp only [run, List.foldl_cons, List.foldl_nil, SweepRace.step, reconcilable_head h hk,
      hbound.resolve_db habout]
    cases c.event.plan c.handlerEnv (repairSubscription c.env c.dryRun k row c.answer db) <;> rfl
  rw [hrun]
  refine ⟨?_, LifecycleEvent.bound_handle hbound c.handlerEnv habout⟩
  rw [LifecycleEvent.handle_bound hbound c.handlerEnv habout, if_pos rfl, hrepaired]
  rfl

/-- **Read before the repair and saved after it.** -/
theorem run_across (h : db.BoundTo c.id k) (habout : c.event.object.id = some c.id)
    (hk : db.subscriptions.get? k = some row) (hrow : row.stripeSubscriptionId = some c.id) :
    (c.run [.readRow, .fetch, .readEvent, .repair, .saveEvent] db).subscriptions.get? k =
      some (c.event.patch c.handlerEnv row (c.answer.repairs c.env c.dryRun row).1) ∧
    (c.run [.readRow, .fetch, .readEvent, .repair, .saveEvent] db).BoundTo c.id k := by
  obtain ⟨hrepaired, hbound⟩ := bound_repair h hk hrow
  rw [(c.answer.repairs_names c.env c.dryRun row).saved] at hrepaired
  have hplan : c.event.plan c.handlerEnv db = if c.event.IsStale row then none
      else some (k, c.event.edit c.handlerEnv row) := by
    rw [LifecycleEvent.plan, h.resolve habout hk]
  simp only [run, List.foldl_cons, List.foldl_nil, SweepRace.step, reconcilable_head h hk, hplan,
    h.resolve_db habout]
  by_cases hstale : c.event.IsStale row
  · simp only [if_pos hstale, LifecycleEvent.patch]
    exact ⟨hrepaired, hbound⟩
  · simp only [if_neg hstale, LifecycleEvent.patch]
    refine ⟨?_, hbound.saved (by rw [LifecycleEvent.edit_fst]; exact hrow)⟩
    rw [applyLifecycle_subscriptions, saveSubscription, Table.get?_modify_self, hrepaired]
    rfl

/-- **Handled between the call and the repair.** -/
theorem run_within (h : db.BoundTo c.id k) (habout : c.event.object.id = some c.id)
    (hk : db.subscriptions.get? k = some row) (hrow : row.stripeSubscriptionId = some c.id) :
    (c.run [.readRow, .fetch, .readEvent, .saveEvent, .repair] db).subscriptions.get? k =
      some ((c.answer.repairs c.env c.dryRun row).2.foldl
        (SubscriptionField.write (c.answer.repairs c.env c.dryRun row).1)
        (c.event.receive c.handlerEnv row)) ∧
    (c.run [.readRow, .fetch, .readEvent, .saveEvent, .repair] db).BoundTo c.id k := by
  have hbound := LifecycleEvent.bound_handle h c.handlerEnv habout
  have hcurrent := LifecycleEvent.handle_bound h c.handlerEnv habout k
  rw [if_pos rfl, hk, Option.map_some] at hcurrent
  have hrun : c.run [.readRow, .fetch, .readEvent, .saveEvent, .repair] db =
      repairSubscription c.env c.dryRun k row c.answer (c.event.handle c.handlerEnv db) := by
    rw [← LifecycleEvent.plan_save h c.handlerEnv habout]
    simp only [run, List.foldl_cons, List.foldl_nil, SweepRace.step, reconcilable_head h hk,
      h.resolve_db habout]
    cases c.event.plan c.handlerEnv db <;> rfl
  rw [hrun]
  exact bound_repair hbound hcurrent hrow

/-- What it takes, handled after the repair. -/
theorem mirroredBy_after : c.event.MirroredBy (c.event.receive c.handlerEnv
    (c.answer.repairs c.env c.dryRun row).1) ↔ (c.event.IsStale (c.stamped row) → c.Agrees row) := by
  rw [← isStale_repairs, ← mirroredBy_repairs]
  unfold LifecycleEvent.receive
  split
  · rename_i hstale
    exact ⟨fun hmirrors _ => hmirrors, fun hmirrors => hmirrors hstale⟩
  · rename_i hfresh
    exact ⟨fun _ hstale => absurd hstale hfresh, fun _ => LifecycleEvent.mirroredBy_edit⟩

/-- What it takes, read before the repair and saved after it. -/
theorem mirroredBy_across : c.event.MirroredBy (c.event.patch c.handlerEnv row
    (c.answer.repairs c.env c.dryRun row).1) ↔ if c.event.IsStale row then c.Agrees row
      else ∀ f, ∀ v ∈ c.event.states f,
        c.event.AlwaysSaves f ∨ f.read row ≠ v ∨ c.answer.value c.dryRun row f = v := by
  by_cases hstale : c.event.IsStale row
  · rw [if_pos hstale, LifecycleEvent.patch_stale hstale, mirroredBy_repairs]
  · rw [if_neg hstale]
    refine forall_congr' fun f => forall₂_congr fun v hv => ?_
    rw [LifecycleEvent.patch_read hstale hv,
      Fetched.repairs_read (LifecycleEvent.mem_reconciledFields hv)]

/-- What it takes, handled between the call and the repair. -/
theorem mirroredBy_within : c.event.MirroredBy ((c.answer.repairs c.env c.dryRun row).2.foldl
    (SubscriptionField.write (c.answer.repairs c.env c.dryRun row).1)
    (c.event.receive c.handlerEnv row)) ↔ if c.event.IsStale row then c.Agrees row
      else ∀ f, ∀ v ∈ c.event.states f,
        c.answer.value c.dryRun row f = f.read row ∨ c.answer.value c.dryRun row f = v := by
  by_cases hstale : c.event.IsStale row
  · rw [if_pos hstale, LifecycleEvent.receive, if_pos hstale,
      (c.answer.repairs_names c.env c.dryRun row).saved, mirroredBy_repairs]
  · rw [if_neg hstale, LifecycleEvent.receive, if_neg hstale]
    exact forall_congr' fun f => forall₂_congr fun v hv =>
      repaired_read LifecycleEvent.mirroredBy_edit hv

/-- Redelivered, an event that a row mirrors leaves it so. -/
theorem redelivered (h : db.BoundTo c.id k) (habout : c.event.object.id = some c.id)
    (hk : db.subscriptions.get? k = some row) (hmirrors : c.event.MirroredBy row)
    (redeliveries : List Env) :
    ∃ final, (deliverEvents (redeliveries.map fun env => (env, c.event)) db).subscriptions.get? k =
      some final ∧ c.event.MirroredBy final := by
  rw [deliverEvents_bound h (by simpa using fun _ _ => habout), hk, Option.map_some]
  refine ⟨_, rfl, ?_⟩
  clear hk
  induction redeliveries generalizing row with
  | nil => exact hmirrors
  | cons env redeliveries ih => exact ih hmirrors.receive

/-- **A webhook during a reconciliation.**  After both, and after any redelivery, the row
has what the event states exactly when the event survives the sweep. -/
theorem sweep_keeps_event_iff (h : db.BoundTo c.id k) (habout : c.event.object.id = some c.id)
    (hk : db.subscriptions.get? k = some row) {schedule : List SweepStep}
    (hschedule : Interleaving [.readRow, .fetch, .repair] [.readEvent, .saveEvent] schedule)
    (hafter : [SweepStep.fetch, .readEvent].Sublist schedule) :
    (∀ redeliveries : List Env, ∃ final, (deliverEvents
        (redeliveries.map fun env => (env, c.event)) (c.run schedule db)).subscriptions.get? k =
          some final ∧ c.event.MirroredBy final) ↔ c.Survives row schedule := by
  have hrow : row.stripeSubscriptionId = some c.id := by
    obtain ⟨sub, hsub, hid⟩ := h.row
    obtain rfl := Option.some.inj (hk.symm.trans hsub)
    exact hid
  -- What holds after both holds after every redelivery.
  have hboth : ∀ {db' : Db} {final : Subscription}, db'.subscriptions.get? k = some final →
      db'.BoundTo c.id k → ((∀ redeliveries : List Env, ∃ last, (deliverEvents
        (redeliveries.map fun env => (env, c.event)) db').subscriptions.get? k = some last ∧
          c.event.MirroredBy last) ↔ c.event.MirroredBy final) := by
    intro db' final hfinal hbound
    constructor
    · intro hall
      obtain ⟨last, hlast, hmirrors⟩ := hall []
      obtain rfl := Option.some.inj (hfinal.symm.trans hlast)
      exact hmirrors
    · exact fun hmirrors => redelivered hbound habout hfinal hmirrors
  rcases orders hschedule hafter with rfl | rfl | rfl
  · obtain ⟨hfinal, hbound⟩ := run_after h habout hk hrow
    rw [hboth hfinal hbound, mirroredBy_after]
    exact ⟨fun hkeeps => ⟨fun _ => hkeeps, nofun, nofun⟩, fun hsurvives => hsurvives.handledAfter rfl⟩
  · obtain ⟨hfinal, hbound⟩ := run_across h habout hk hrow
    rw [hboth hfinal hbound, mirroredBy_across]
    exact ⟨fun hkeeps => ⟨nofun, fun _ => hkeeps, nofun⟩, fun hsurvives => hsurvives.handledAcross rfl⟩
  · obtain ⟨hfinal, hbound⟩ := run_within h habout hk hrow
    rw [hboth hfinal hbound, mirroredBy_within]
    exact ⟨fun hkeeps => ⟨nofun, nofun, fun _ => hkeeps⟩, fun hsurvives => hsurvives.handledWithin rfl⟩

end SweepCase

/-! ## A cancellation undone by the sweep -/

/-- The sweep is told that `sub_1` is active, and saves at second thirty; the deletion of
second twenty is handled meanwhile. -/
def sweptDeletion : SweepCase where
  id := "sub_1"
  env := Env.plain 30000000
  dryRun := false
  answer := .found (monthOf "active" false)
  handlerEnv := Env.plain 21000000
  event := deletionAtTwenty

/-- One row that is past due. -/
def pastDueRow : Db :=
  { users := [1]
    subscriptions := Table.empty.insert
      { user := some 1, stripeSubscriptionId := some "sub_1", status := .pastDue } }

theorem pastDueRow_boundTo : pastDueRow.BoundTo "sub_1" 0 where
  named := by decide
  row := ⟨_, rfl, rfl⟩
  only := by
    intro j sub hj _
    rw [pastDueRow, Table.get?_insert] at hj
    split at hj
    · assumption
    · exact Table.get?_empty_ne hj

/-- **The sweep makes the deleted subscription active again**, and every redelivery of the
deletion is dropped. -/
theorem deletion_undone_by_sweep :
    ¬ ∀ schedule, Interleaving [.readRow, .fetch, .repair] [.readEvent, .saveEvent] schedule →
      [SweepStep.fetch, .readEvent].Sublist schedule →
      ∀ redeliveries : List Env, ∃ final, (deliverEvents
        (redeliveries.map fun env => (env, deletionAtTwenty))
          (sweptDeletion.run schedule pastDueRow)).subscriptions.get? 0 = some final ∧
        deletionAtTwenty.MirroredBy final := by
  intro h
  have hlost : ((deliverEvents [(Env.plain 40000000, deletionAtTwenty)]
      (sweptDeletion.run [.readRow, .fetch, .readEvent, .saveEvent, .repair]
        pastDueRow)).subscriptions.get? 0).map Subscription.status = some .active := by decide +kernel
  obtain ⟨final, hfinal, hmirrors⟩ := h _ (.left (.left (.right (.right (.left .nil)))))
    (by decide) [Env.plain 40000000]
  rw [List.map_singleton] at hfinal
  rw [hfinal, Option.map_some, Option.some.injEq] at hlost
  have hcancelled := hmirrors .status _ rfl
  rw [SubscriptionField.read, hlost] at hcancelled
  exact absurd hcancelled (by decide)

/-- The same sweep, saved at second ten: its repair is written, and the deletion comes after it. -/
def sweptEarlier : SweepCase := { sweptDeletion with env := Env.plain 10000000 }

theorem applied_sweep_keeps_deletion :
    ((sweptEarlier.run [.readRow, .fetch, .repair] pastDueRow).subscriptions.get? 0).map
        Subscription.status = some .active ∧
      ∃ final, (deliverEvents [(Env.plain 40000000, deletionAtTwenty)] (sweptEarlier.run
        [.readRow, .fetch, .repair, .readEvent, .saveEvent] pastDueRow)).subscriptions.get? 0 =
          some final ∧ deletionAtTwenty.MirroredBy final := by
  refine ⟨by decide +kernel, (SweepCase.sweep_keeps_event_iff (c := sweptEarlier)
    pastDueRow_boundTo rfl rfl (.left (.left (.left (.right (.right .nil))))) (by decide)).mpr
      ⟨fun _ hstale => ?_, nofun, nofun⟩ [Env.plain 40000000]⟩
  exact absurd hstale (by decide +kernel)

end StapelBilling
