import StapelBilling.EventOrder
import StapelBilling.Store.Races

/-! # Two events at once

Each event is handled in its own transaction, which locks the event's row and not the
subscription's: a handler reads the subscription, decides on what it read, and saves the
columns it changed over whatever the row has become.  The older of two events can be decided
on before the newer is saved and be saved after it.
-/
namespace StapelBilling
open Store

/-! ## What a save names -/

section Fields
variable {sub : Subscription} {f : SubscriptionField}

theorem applyStripePeriod_fields {obj : SubscriptionObject} (h : f ∈ (applyStripePeriod obj sub).2) :
    f = .currentPeriodStart ∨ f = .currentPeriodEnd := by
  simp only [applyStripePeriod] at h
  by_cases hstart : (stripePeriod obj).1 ≠ none ∧ (stripePeriod obj).1 ≠ sub.currentPeriodStart
  · simp only [if_pos hstart] at h
    split at h
    · simpa using h
    · exact Or.inl (by simpa using h)
  · simp only [if_neg hstart] at h
    split at h
    · exact Or.inr (by simpa using h)
    · exact absurd h List.not_mem_nil

theorem cancelledAt_fields (middle : Subscription) {first : List SubscriptionField}
    {cancelled : Option Time} (flag : Option Bool)
    (h : f ∈ (if cancelled ≠ none ∧ cancelled ≠ middle.cancelledAt then
        (({ middle with cancelledAt := cancelled }, first ++ [.cancelledAt]) : Edited)
      else if cancelled = none ∧ flag = some false ∧ middle.cancelledAt ≠ none then
        ({ middle with cancelledAt := none }, first ++ [.cancelledAt])
      else (middle, first)).2) : f ∈ first ∨ f = .cancelledAt := by
  split at h
  · simpa using h
  · split at h
    · simpa using h
    · exact Or.inl h

theorem applyStripeCancellation_fields {obj : SubscriptionObject}
    (h : f ∈ (applyStripeCancellation obj sub).2) : f = .cancelAtPeriodEnd ∨ f = .cancelledAt := by
  simp only [applyStripeCancellation] at h
  cases hflag : obj.cancelAtPeriodEnd with
  | none =>
    rw [hflag] at h
    exact Or.inr ((cancelledAt_fields sub none h).resolve_left List.not_mem_nil)
  | some b =>
    rw [hflag] at h
    by_cases hb : b ≠ sub.cancelAtPeriodEnd
    · simp only [if_pos hb] at h
      exact (cancelledAt_fields { sub with cancelAtPeriodEnd := b } (some b) h).imp_left List.mem_singleton.mp
    · simp only [if_neg hb] at h
      exact Or.inr ((cancelledAt_fields sub (some b) h).resolve_left List.not_mem_nil)

theorem advanceProviderClock_fields {event : Option Time} (h : f ∈ (advanceProviderClock event sub).2) :
    f = .lastProviderEventAt := by
  unfold advanceProviderClock at h
  split at h
  · exact absurd h List.not_mem_nil
  · split at h
    · exact absurd h List.not_mem_nil
    · exact List.mem_singleton.mp h

theorem mem_advanceProviderClock {event : Option Time} :
    .lastProviderEventAt ∈ (advanceProviderClock event sub).2 ↔
      ∃ t ∈ event, ∀ last ∈ sub.lastProviderEventAt, last < t := by
  unfold advanceProviderClock
  cases event with
  | none => simp
  | some t =>
    dsimp only
    split
    · rename_i h
      obtain ⟨last, hlast, hle⟩ := h
      constructor
      · intro hmem
        exact absurd hmem List.not_mem_nil
      · rintro ⟨t', ht', hall⟩
        obtain rfl := Option.some.inj ht'
        exact absurd (hall last hlast) (not_lt.mpr hle)
    · rename_i h
      constructor
      · intro _
        refine ⟨t, rfl, fun last hlast => ?_⟩
        by_contra hle
        exact h ⟨last, hlast, not_lt.mp hle⟩
      · intro _
        exact List.mem_singleton_self _

variable (env : Env) (e : LifecycleEvent) (sub)

/-- An event always saves the status. -/
theorem LifecycleEvent.status_mem_edit : .status ∈ (e.edit env sub).2 := by
  cases e with
  | updated event => exact List.mem_cons_self
  | deleted event => exact List.mem_cons_self

/-- An event saves the clock when it moves it. -/
theorem LifecycleEvent.clock_mem_edit : .lastProviderEventAt ∈ (e.edit env sub).2 ↔
    ∃ t ∈ e.time, ∀ last ∈ sub.lastProviderEventAt, last < t := by
  have hperiod : ∀ (obj : SubscriptionObject) (row : Subscription),
      .lastProviderEventAt ∉ (applyStripePeriod obj row).2 := fun obj row h => by
    rcases applyStripePeriod_fields h with h | h <;> cases h
  have hcancel : ∀ (obj : SubscriptionObject) (row : Subscription),
      .lastProviderEventAt ∉ (applyStripeCancellation obj row).2 := fun obj row h => by
    rcases applyStripeCancellation_fields h with h | h <;> cases h
  cases e with
  | updated event =>
    simp only [edit, updatedSubscription, List.mem_cons, List.mem_append, hperiod, hcancel,
      reduceCtorEq, false_or, mem_advanceProviderClock, applyStripeCancellation_fst,
      applyStripePeriod_fst]
    rfl
  | deleted event =>
    simp only [edit, deletedSubscription, List.cons_append, List.nil_append, List.mem_cons,
      List.mem_append, hperiod, reduceCtorEq, false_or, mem_advanceProviderClock,
      applyStripePeriod_fst]
    rfl

end Fields

/-! ## Handlers in two steps -/

/-- What a handler has decided when it has read: which row to save, and how. -/
def LifecycleEvent.plan (env : Env) (e : LifecycleEvent) (db : Db) : Option (ℕ × Edited) :=
  match (resolveLocalSubscription e.object db).1 with
  | none => none
  | some (k, sub) => if e.IsStale sub then none else some (k, e.edit env sub)

/-- The two transactions. -/
inductive Side
  | older | newer
  deriving DecidableEq

/-- The database, and what each transaction has decided to save. -/
structure EventRace where
  db : Db
  planned : Side → Option (ℕ × Edited)

/-- One step of a handler.  Reading saves the ids that a row found by customer or by user
adopts; a row that carries the event's id is found without a write. -/
def EventRace.step (events : Side → Env × LifecycleEvent) (race : EventRace) :
    Access Side → EventRace
  | .read side =>
    { db := (resolveLocalSubscription (events side).2.object race.db).2
      planned := Function.update race.planned side ((events side).2.plan (events side).1 race.db) }
  | .write side =>
    match race.planned side with
    | none => race
    | some (k, edited) => { race with db := applyLifecycle k edited race.db }

/-- The database after a schedule. -/
def raceEvents (events : Side → Env × LifecycleEvent) (schedule : List (Access Side)) (db : Db) : Db :=
  (schedule.foldl (EventRace.step events) ⟨db, fun _ => none⟩).db

/-- What an event decided on one state of a row makes of another. -/
def LifecycleEvent.patch (env : Env) (e : LifecycleEvent) (old current : Subscription) :
    Subscription :=
  if e.IsStale old then current
  else (e.edit env old).2.foldl (SubscriptionField.write (e.edit env old).1) current

section Race
variable {id : String} {k : ℕ} {db : Db} {events : Side → Env × LifecycleEvent}

/-- Columns written over a subscription's row, of another row that has its id, leave it the
id. -/
theorem SubscriptionField.foldl_write_id {sub row : Subscription} (fields : List SubscriptionField)
    (hsub : sub.stripeSubscriptionId = some id) (hrow : row.stripeSubscriptionId = some id) :
    (fields.foldl (write sub) row).stripeSubscriptionId = some id := by
  have hread := @read_foldl_write sub row fields .stripeSubscriptionId
  have hboth : read sub .stripeSubscriptionId = read row .stripeSubscriptionId :=
    congrArg ColumnValue.text (hsub.trans hrow.symm)
  rw [hboth, ite_self] at hread
  exact (ColumnValue.text.inj hread).trans hrow

/-- A save keeps the row the subscription's. -/
theorem Db.BoundTo.saved (h : db.BoundTo id k) {edited : Edited}
    (hid : edited.1.stripeSubscriptionId = some id) : (applyLifecycle k edited db).BoundTo id k := by
  obtain ⟨sub, hk, hsub⟩ := h.row
  refine h.of_get? (fun j hj => ?_) ?_ (SubscriptionField.foldl_write_id edited.2 hid hsub)
  · rw [applyLifecycle_subscriptions, saveSubscription, Table.get?_modify_of_ne _ _ hj]
  · rw [applyLifecycle_subscriptions, saveSubscription, Table.get?_modify_self, hk]
    rfl

/-- **Race and shared row.**  On a bound row the two handlers are two transactions on that
row. -/
theorem EventRace.step_shared {race : EventRace} {shared : Shared Side Subscription}
    (habout : ∀ side, (events side).2.object.id = some id) (h : race.db.BoundTo id k)
    (hrow : race.db.subscriptions.get? k = some shared.value)
    (hplan : ∀ side, race.planned side = (shared.seen side).bind fun old =>
      if (events side).2.IsStale old then none else some (k, (events side).2.edit (events side).1 old))
    (hseen : ∀ side, ∀ old ∈ shared.seen side, old.stripeSubscriptionId = some id)
    (access : Access Side) :
    (race.step events access).db.BoundTo id k ∧
    (race.step events access).db.subscriptions.get? k =
      some (access.step (fun side => (events side).2.patch (events side).1) shared).value ∧
    (∀ side, (race.step events access).planned side =
      ((access.step (fun side => (events side).2.patch (events side).1) shared).seen side).bind
        fun old => if (events side).2.IsStale old then none
          else some (k, (events side).2.edit (events side).1 old)) ∧
    ∀ side, ∀ old ∈ (access.step (fun side => (events side).2.patch (events side).1) shared).seen side,
      old.stripeSubscriptionId = some id := by
  obtain ⟨sub, hk, hsub⟩ := h.row
  obtain rfl := Option.some.inj (hk.symm.trans hrow)
  cases access with
  | read side =>
    -- a read of a bound row adopts nothing
    have hfound : (race.step events (.read side)).db = race.db := h.resolve_db (habout side)
    rw [hfound]
    refine ⟨h, hrow, fun other => ?_, fun other old hold => ?_⟩
    · by_cases hside : other = side
      · subst hside
        simp only [step, Access.step, Function.update_self, Option.bind_some, LifecycleEvent.plan,
          h.resolve (habout other) hrow]
      · simp only [step, Access.step, Function.update_of_ne hside]
        exact hplan other
    · by_cases hside : other = side
      · subst hside
        simp only [Access.step, Function.update_self, Option.mem_some_iff] at hold
        rw [← hold]
        exact hsub
      · simp only [Access.step, Function.update_of_ne hside] at hold
        exact hseen other old hold
  | write side =>
    have hside := hplan side
    cases hold : shared.seen side with
    | none =>
      rw [hold, Option.bind_none] at hside
      simp only [step, Access.step, hside, hold]
      exact ⟨h, hrow, hplan, hseen⟩
    | some old =>
      rw [hold, Option.bind_some] at hside
      -- a stale event planned nothing, and writes nothing
      by_cases hstale : (events side).2.IsStale old
      · rw [if_pos hstale] at hside
        simp only [step, Access.step, hside, hold, LifecycleEvent.patch, if_pos hstale]
        exact ⟨h, hrow, hplan, hseen⟩
      · rw [if_neg hstale] at hside
        have hid : ((events side).2.edit (events side).1 old).1.stripeSubscriptionId = some id := by
          rw [LifecycleEvent.edit_fst]
          exact hseen side old hold
        simp only [step, Access.step, hside, hold, LifecycleEvent.patch, if_neg hstale]
        refine ⟨h.saved hid, ?_, hplan, hseen⟩
        rw [applyLifecycle_subscriptions, saveSubscription, Table.get?_modify_self, hrow]
        rfl

/-- Planned and saved in one go, an event about a bound row is handled. -/
theorem LifecycleEvent.plan_save (h : db.BoundTo id k) (env : Env) {e : LifecycleEvent}
    (hid : e.object.id = some id) :
    (match e.plan env db with
      | none => db
      | some (j, edited) => applyLifecycle j edited db) = e.handle env db := by
  obtain ⟨sub, hk, -⟩ := h.row
  have hresolve := h.resolve hid hk
  simp only [plan, hresolve, handle_eq]
  by_cases hstale : e.IsStale sub
  · simp only [if_pos hstale]
  · simp only [if_neg hstale]

/-- Run in one go, the two steps of a handler are the handler. -/
theorem raceEvents_serial (habout : ∀ side, (events side).2.object.id = some id)
    (h : db.BoundTo id k) (side : Side) :
    raceEvents events [.read side, .write side] db = (events side).2.handle (events side).1 db := by
  rw [← LifecycleEvent.plan_save h (events side).1 (habout side)]
  simp only [raceEvents, List.foldl_cons, List.foldl_nil, EventRace.step, Function.update_self,
    h.resolve_db (habout side)]
  cases (events side).2.plan (events side).1 db <;> rfl

/-- **The row after a schedule** is the outcome of the two transactions on it. -/
theorem raceEvents_outcome (habout : ∀ side, (events side).2.object.id = some id)
    (h : db.BoundTo id k) {row : Subscription} (hrow : db.subscriptions.get? k = some row)
    (schedule : List (Access Side)) :
    (raceEvents events schedule db).subscriptions.get? k =
      some (outcome (fun side => (events side).2.patch (events side).1) schedule row) := by
  have hrun : ∀ (race : EventRace) (shared : Shared Side Subscription), race.db.BoundTo id k →
      race.db.subscriptions.get? k = some shared.value →
      (∀ side, race.planned side = (shared.seen side).bind fun old =>
        if (events side).2.IsStale old then none
        else some (k, (events side).2.edit (events side).1 old)) →
      (∀ side, ∀ old ∈ shared.seen side, old.stripeSubscriptionId = some id) →
      (schedule.foldl (EventRace.step events) race).db.subscriptions.get? k =
        some (schedule.foldl
          (Access.step fun side => (events side).2.patch (events side).1) shared).value := by
    induction schedule with
    | nil => exact fun race shared _ hrow _ _ => hrow
    | cons access schedule ih =>
      intro race shared hbound hrow hplan hseen
      obtain ⟨hbound', hrow', hplan', hseen'⟩ :=
        EventRace.step_shared habout hbound hrow hplan hseen access
      exact ih _ _ hbound' hrow' hplan' hseen'
  exact hrun ⟨db, fun _ => none⟩ (Shared.start row) h hrow (fun _ => rfl) fun _ _ hold => by cases hold

end Race

/-! ## Who has the last word -/

section LastWord
variable {env : Env} {e : LifecycleEvent} {t : Time} {old current : Subscription}

/-- Stale is what the row is past: by its clock, or at the same instant by its status. -/
theorem LifecycleEvent.isStale_iff (ht : e.time = some t) : e.IsStale old ↔
    ∃ last, old.lastProviderEventAt = some last ∧ (t < last ∨ t = last ∧
      ∃ status ∈ mapStripeStatus e.statusText none, lifecycleRank status < lifecycleRank old.status) := by
  unfold IsStale isStaleLifecycleEvent
  rw [ht]
  cases hlast : old.lastProviderEventAt with
  | none => simp
  | some last =>
    dsimp only
    by_cases hlt : last < t
    · simp [hlt, not_lt.mpr hlt.le, ne_of_gt hlt]
    · by_cases hgt : t < last
      · simp [hlt, hgt]
      · have heq : t = last := le_antisymm (not_lt.mp hlt) (not_lt.mp hgt)
        subst heq
        cases hstatus : mapStripeStatus e.statusText none <;> simp

/-- A row that takes an event up is not past it. -/
theorem LifecycleEvent.clock_le (ht : e.time = some t) (hfresh : ¬ e.IsStale old) {last : Time}
    (hlast : old.lastProviderEventAt = some last) : last ≤ t := by
  by_contra hlt
  exact hfresh ((e.isStale_iff ht).mpr ⟨last, hlast, Or.inl (not_le.mp hlt)⟩)

theorem LifecycleEvent.patch_stale (h : e.IsStale old) : e.patch env old current = current :=
  if_pos h

theorem LifecycleEvent.patch_self : e.patch env old old = e.receive env old := by
  unfold patch receive
  split
  · rfl
  · exact (e.edit_names env old).saved

theorem LifecycleEvent.patch_status (h : ¬ e.IsStale old) :
    (e.patch env old current).status = e.statusAfter old.status := by
  have hread := @SubscriptionField.read_foldl_write (e.edit env old).1 current (e.edit env old).2
    .status
  rw [if_pos (e.status_mem_edit old env), LifecycleEvent.edit_fst env e old] at hread
  rw [patch, if_neg h, LifecycleEvent.edit_fst]
  exact ColumnValue.status.inj hread

/-- A save moves the clock when the event was past the clock it read. -/
theorem LifecycleEvent.patch_clock (ht : e.time = some t) (h : ¬ e.IsStale old) :
    (e.patch env old current).lastProviderEventAt =
      if ∀ last ∈ old.lastProviderEventAt, last < t then some t else current.lastProviderEventAt := by
  have hread := @SubscriptionField.read_foldl_write (e.edit env old).1 current (e.edit env old).2
    .lastProviderEventAt
  have hnamed : .lastProviderEventAt ∈ (e.edit env old).2 ↔
      ∀ last ∈ old.lastProviderEventAt, last < t := by
    rw [e.clock_mem_edit old env, ht]
    simp
  rw [patch, if_neg h]
  by_cases hlt : ∀ last ∈ old.lastProviderEventAt, last < t
  · rw [if_pos (hnamed.mpr hlt)] at hread
    rw [if_pos hlt]
    refine (ColumnValue.time.inj hread).trans ?_
    rw [LifecycleEvent.edit_fst, ht]
    cases hlast : old.lastProviderEventAt with
    | none => rfl
    | some last => exact congrArg some (max_eq_right (hlt last hlast).le)
  · rw [if_neg fun hmem => hlt (hnamed.mp hmem)] at hread
    rw [if_neg hlt]
    exact ColumnValue.time.inj hread

/-- Taken up from a row, an event leaves its clock. -/
theorem LifecycleEvent.receive_clock (ht : e.time = some t) (h : ¬ e.IsStale old) :
    (e.receive env old).lastProviderEventAt = some t := by
  rw [← patch_self, patch_clock ht h]
  split
  · rfl
  · rename_i hlt
    push Not at hlt
    obtain ⟨last, hlast, hle⟩ := hlt
    rw [hlast, le_antisymm (clock_le ht h hlast) hle]

/-- The row has the status, when it is known, and the time of an event. -/
structure LifecycleEvent.HasLastWord (e : LifecycleEvent) (t : Time) (row : Subscription) : Prop where
  clock : row.lastProviderEventAt = some t
  status : ∀ status ∈ mapStripeStatus e.statusText none, row.status = status

theorem LifecycleEvent.statusAfter_known {status current : SubscriptionStatus}
    (h : status ∈ mapStripeStatus e.statusText none) : e.statusAfter current = status := by
  unfold mapStripeStatus at h
  unfold statusAfter mapStripeStatus
  cases hmap : e.statusText.bind fun raw => stripeStatusMap.lookup raw with
  | none =>
    rw [hmap] at h
    cases h
  | some known =>
    rw [hmap] at h
    exact Option.some.inj h

theorem LifecycleEvent.receive_hasLastWord (ht : e.time = some t) (h : ¬ e.IsStale old) :
    e.HasLastWord t (e.receive env old) where
  clock := receive_clock ht h
  status := by
    intro status hknown
    rw [← patch_self, patch_status h, statusAfter_known hknown]

/-- A row that drops an event never had its status and time. -/
theorem LifecycleEvent.not_hasLastWord (ht : e.time = some t) (h : e.IsStale old) :
    ¬ e.HasLastWord t old := by
  intro hword
  obtain ⟨last, hlast, hlt | ⟨-, status, hknown, hrank⟩⟩ := (e.isStale_iff ht).mp h
  · exact absurd (Option.some.inj (hlast.symm.trans hword.clock)) (ne_of_gt hlt)
  · rw [hword.status status hknown] at hrank
    exact absurd hrank (lt_irrefl _)

end LastWord

section Newer
variable {events : Side → Env × LifecycleEvent} {tOlder tNewer : Time} {row : Subscription}

/-- What the row was past before the newer event it is past before the older. -/
theorem older_stale_of_newer (holder : (events .older).2.time = some tOlder)
    (hnewer : (events .newer).2.time = some tNewer) (hlt : tOlder < tNewer)
    (h : (events .newer).2.IsStale row) : (events .older).2.IsStale row := by
  obtain ⟨last, hlast, hpast⟩ := (LifecycleEvent.isStale_iff hnewer).mp h
  refine (LifecycleEvent.isStale_iff holder).mpr ⟨last, hlast, Or.inl ?_⟩
  rcases hpast with hpast | ⟨heq, -⟩
  · exact hlt.trans hpast
  · exact hlt.trans_eq heq

/-- What takes up the newer event takes it up after the older. -/
theorem newer_fresh_after_older {env : Env} (holder : (events .older).2.time = some tOlder)
    (hnewer : (events .newer).2.time = some tNewer) (hlt : tOlder < tNewer)
    (h : ¬ (events .newer).2.IsStale row) :
    ¬ (events .newer).2.IsStale ((events .older).2.receive env row) := by
  by_cases hstale : (events .older).2.IsStale row
  · rw [LifecycleEvent.receive, if_pos hstale]
    exact h
  · rw [LifecycleEvent.isStale_iff hnewer, LifecycleEvent.receive_clock holder hstale]
    rintro ⟨last, hlast, hpast⟩
    obtain rfl := Option.some.inj hlast
    rcases hpast with hpast | ⟨heq, -⟩
    · exact absurd hpast (not_lt.mpr hlt.le)
    · exact absurd heq (ne_of_gt hlt)

/-- What has taken up the newer event is past the older. -/
theorem older_stale_after_newer {env : Env} (holder : (events .older).2.time = some tOlder)
    (hnewer : (events .newer).2.time = some tNewer) (hlt : tOlder < tNewer)
    (h : ¬ (events .newer).2.IsStale row) :
    (events .older).2.IsStale ((events .newer).2.receive env row) :=
  (LifecycleEvent.isStale_iff holder).mpr
    ⟨tNewer, LifecycleEvent.receive_clock hnewer h, Or.inl hlt⟩

/-- Saved over the older event, the newer has the last word. -/
theorem saved_over_older {env env' : Env} (holder : (events .older).2.time = some tOlder)
    (hnewer : (events .newer).2.time = some tNewer) (hlt : tOlder < tNewer)
    (h : ¬ (events .newer).2.IsStale row) : (events .newer).2.HasLastWord tNewer
      ((events .newer).2.patch env row ((events .older).2.receive env' row)) := by
  by_cases hstale : (events .older).2.IsStale row
  · rw [LifecycleEvent.receive, if_pos hstale, LifecycleEvent.patch_self]
    exact LifecycleEvent.receive_hasLastWord hnewer h
  · refine ⟨?_, fun status hknown => ?_⟩
    · rw [LifecycleEvent.patch_clock hnewer h, if_pos]
      intro last hlast
      exact (LifecycleEvent.clock_le holder hstale hlast).trans_lt hlt
    · rw [LifecycleEvent.patch_status h, LifecycleEvent.statusAfter_known hknown]

/-- **The older event saved over the newer** leaves the newer its last word only where it
neither moves the clock nor changes the status. -/
theorem overwritten_iff {env : Env} {current : Subscription}
    (holder : (events .older).2.time = some tOlder) (hlt : tOlder < tNewer)
    (hstale : ¬ (events .older).2.IsStale row) (hclock : current.lastProviderEventAt = some tNewer) :
    (events .newer).2.HasLastWord tNewer ((events .older).2.patch env row current) ↔
      row.lastProviderEventAt = some tOlder ∧
        ∀ status ∈ mapStripeStatus (events .newer).2.statusText none,
          (events .older).2.statusAfter row.status = status := by
  have hsaved := @LifecycleEvent.patch_clock env _ _ _ current holder hstale
  constructor
  · rintro ⟨hfinal, hstatus⟩
    refine ⟨?_, fun status hknown => ?_⟩
    · rw [hfinal] at hsaved
      split at hsaved
      · exact absurd (Option.some.inj hsaved) (ne_of_gt hlt)
      · rename_i hpast
        push Not at hpast
        obtain ⟨last, hlast, hle⟩ := hpast
        rw [hlast, le_antisymm (LifecycleEvent.clock_le holder hstale hlast) hle]
    · rw [← LifecycleEvent.patch_status hstale]
      exact hstatus status hknown
  · rintro ⟨hlast, hstatus⟩
    refine ⟨?_, fun status hknown => ?_⟩
    · rw [hsaved, if_neg fun h => absurd (h tOlder hlast) (lt_irrefl _), hclock]
    · rw [LifecycleEvent.patch_status hstale]
      exact hstatus status hknown

variable {id : String} {k : ℕ} {db : Db} {schedule : List (Access Side)}

/-- **Two concurrent events** leave the row with the newer one's status and time exactly
when the newer is not itself stale for the row, and the older is not saved over it: it is
saved last with both read before, only if it is stale too, or is of the very instant the row
stands at and brings the same status. -/
theorem concurrent_events_iff (hbound : db.BoundTo id k)
    (habout : ∀ side, (events side).2.object.id = some id)
    (hrow : db.subscriptions.get? k = some row)
    (holder : (events .older).2.time = some tOlder) (hnewer : (events .newer).2.time = some tNewer)
    (hlt : tOlder < tNewer)
    (hschedule : Interleaving [.read .older, .write .older] [.read .newer, .write .newer] schedule) :
    (∃ final, (raceEvents events schedule db).subscriptions.get? k = some final ∧
      (events .newer).2.HasLastWord tNewer final) ↔
    ¬ (events .newer).2.IsStale row ∧ (Overwrites .older .newer schedule →
      (events .older).2.IsStale row ∨ row.lastProviderEventAt = some tOlder ∧
        ∀ status ∈ mapStripeStatus (events .newer).2.statusText none,
          (events .older).2.statusAfter row.status = status) := by
  rw [raceEvents_outcome habout hbound hrow schedule]
  have hfinal : ∀ final : Subscription, (∃ row', some final = some row' ∧
      (events .newer).2.HasLastWord tNewer row') ↔ (events .newer).2.HasLastWord tNewer final :=
    fun final => ⟨fun ⟨_, he, hw⟩ => by rw [Option.some.inj he]; exact hw, fun hw => ⟨_, rfl, hw⟩⟩
  rw [hfinal]
  have hne : Side.older ≠ Side.newer := nofun
  by_cases hfresh : (events .newer).2.IsStale row
  · -- Both are stale for the row, and whatever the order it stays as it is.
    have hstale := older_stale_of_newer holder hnewer hlt hfresh
    have hsame : outcome (fun side => (events side).2.patch (events side).1) schedule row = row := by
      by_cases hover : Overwrites .older .newer schedule
      · rw [outcome_of_overwrites hne hover, LifecycleEvent.patch_stale hstale,
          LifecycleEvent.patch_stale hfresh]
      · rcases outcome_of_not_overwrites (fun side => (events side).2.patch (events side).1) hne
          hschedule hover row with h | h | h <;>
        simp only [h, LifecycleEvent.patch_stale hstale, LifecycleEvent.patch_stale hfresh]
    rw [hsame]
    constructor
    · intro hword
      exact absurd hword (LifecycleEvent.not_hasLastWord hnewer hfresh)
    · rintro ⟨hno, -⟩
      exact absurd hfresh hno
  · by_cases hover : Overwrites .older .newer schedule
    · -- the older event read before the newer wrote, and writes last
      rw [outcome_of_overwrites hne hover, LifecycleEvent.patch_self]
      by_cases hstale : (events .older).2.IsStale row
      · rw [LifecycleEvent.patch_stale hstale]
        exact ⟨fun _ => ⟨hfresh, fun _ => Or.inl hstale⟩,
          fun _ => LifecycleEvent.receive_hasLastWord hnewer hfresh⟩
      · rw [overwritten_iff holder hlt hstale
          (LifecycleEvent.receive_clock hnewer hfresh)]
        constructor
        · intro h
          exact ⟨hfresh, fun _ => Or.inr h⟩
        · rintro ⟨-, h⟩
          exact (h hover).resolve_left hstale
    · refine ⟨fun _ => ⟨hfresh, fun h => absurd h hover⟩, fun _ => ?_⟩
      rcases outcome_of_not_overwrites (fun side => (events side).2.patch (events side).1) hne
        hschedule hover row with h | h | h
      · rw [h, LifecycleEvent.patch_self, LifecycleEvent.patch_self]
        exact LifecycleEvent.receive_hasLastWord hnewer
          (newer_fresh_after_older holder hnewer hlt hfresh)
      · rw [h, LifecycleEvent.patch_self, LifecycleEvent.patch_self, LifecycleEvent.receive,
          if_pos (older_stale_after_newer holder hnewer hlt hfresh)]
        exact LifecycleEvent.receive_hasLastWord hnewer hfresh
      · rw [h, LifecycleEvent.patch_self]
        exact saved_over_older holder hnewer hlt hfresh

end Newer

/-! ## A cancellation lost -/

/-- The update of second ten and the deletion of second twenty, handled at once. -/
def updateAndDeletion : Side → Env × LifecycleEvent
  | .older => (Env.plain 0, updateAtTen)
  | .newer => (Env.plain 0, deletionAtTwenty)

/-- **The older update is saved over the deletion**: the row is active again, and its clock
back at second ten. -/
theorem deletion_overwritten :
    (∃ final, (raceEvents updateAndDeletion
        [.read .older, .read .newer, .write .newer, .write .older] boundRow).subscriptions.get? 0 =
          some final ∧ final.status = .active ∧ final.lastProviderEventAt = some 10000000) ∧
    ¬ ∀ schedule, Interleaving [.read .older, .write .older] [.read .newer, .write .newer] schedule →
      ∃ final, (raceEvents updateAndDeletion schedule boundRow).subscriptions.get? 0 = some final ∧
        deletionAtTwenty.HasLastWord 20000000 final := by
  have hlost : ((raceEvents updateAndDeletion
      [.read .older, .read .newer, .write .newer, .write .older] boundRow).subscriptions.get? 0).map
        (fun row => (row.status, row.lastProviderEventAt)) = some (.active, some 10000000) := by
    decide +kernel
  obtain ⟨final, hfinal, hcols⟩ := Option.map_eq_some_iff.mp hlost
  refine ⟨⟨final, hfinal, congrArg Prod.fst hcols, congrArg Prod.snd hcols⟩, fun h => ?_⟩
  obtain ⟨row, hrow, hword⟩ := h _ (.left (.right (.right (.left .nil))))
  obtain rfl := Option.some.inj (hfinal.symm.trans hrow)
  exact absurd (hword.clock.symm.trans (congrArg Prod.snd hcols)) (by decide)

/-- Handled one after the other, the deletion has the last word. -/
theorem deletion_after_update : ∃ final,
    (raceEvents updateAndDeletion [.read .older, .write .older, .read .newer, .write .newer]
      boundRow).subscriptions.get? 0 = some final ∧
      deletionAtTwenty.HasLastWord 20000000 final := by
  have habout : ∀ side, (updateAndDeletion side).2.object.id = some "sub_1" := fun side => by
    cases side <;> rfl
  have hschedule : Interleaving [Access.read Side.older, .write .older]
      [.read .newer, .write .newer] [.read .older, .write .older, .read .newer, .write .newer] :=
    .left (.left (.right (.right .nil)))
  refine (concurrent_events_iff boundRow_boundTo habout rfl updateAtTen_dated.time
    deletionAtTwenty_dated.time (by decide) hschedule).mpr ⟨by decide, fun h => ?_⟩
  rcases h with h | h
  · exact absurd h (by decide)
  · exact absurd h (by decide)

end StapelBilling
