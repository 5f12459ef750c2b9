import StapelBilling.Checkout
import StapelBilling.Store.Newest

/-! # Lifecycle events on a row

The three lifecycle events share one handler: find the row, drop what is older than what
the row has seen, and otherwise save the columns the event changed.  What an event makes of
a row is stated column by column, and what a save writes by the columns it names.
-/
namespace StapelBilling
open Store

/-! ## Columns -/

/-- The value of a column. -/
inductive ColumnValue
  | status (status : SubscriptionStatus)
  | text (text : Option String)
  | time (time : Option Time)
  | flag (flag : Bool)
  deriving DecidableEq

/-- Read one column of a row. -/
def SubscriptionField.read (row : Subscription) : SubscriptionField → ColumnValue
  | .status => .status row.status
  | .stripeSubscriptionId => .text row.stripeSubscriptionId
  | .stripeCustomerId => .text row.stripeCustomerId
  | .lastProviderEventAt => .time row.lastProviderEventAt
  | .currentPeriodStart => .time row.currentPeriodStart
  | .currentPeriodEnd => .time row.currentPeriodEnd
  | .cancelAtPeriodEnd => .flag row.cancelAtPeriodEnd
  | .cancelledAt => .time row.cancelledAt

namespace SubscriptionField
variable {sub row : Subscription}

theorem read_write (f g : SubscriptionField) :
    g.read (f.write sub row) = if g = f then g.read sub else g.read row := by
  cases f <;> cases g <;> rfl

/-- **A save writes the columns it names.** -/
theorem read_foldl_write (fields : List SubscriptionField) (g : SubscriptionField) :
    g.read (fields.foldl (write sub) row) = if g ∈ fields then g.read sub else g.read row := by
  induction fields generalizing row with
  | nil => rfl
  | cons f fields ih =>
    rw [List.foldl_cons, ih, read_write]
    by_cases hmem : g ∈ fields
    · rw [if_pos hmem, if_pos (List.mem_cons_of_mem _ hmem)]
    · by_cases hg : g = f
      · rw [if_neg hmem, if_pos hg, if_pos (by rw [hg]; exact List.mem_cons_self)]
      · rw [if_neg hmem, if_neg hg, if_neg fun h => (List.mem_cons.mp h).elim hg hmem]

theorem foldl_write_frame (fields : List SubscriptionField) :
    (fields.foldl (write sub) row).user = row.user ∧ (fields.foldl (write sub) row).plan = row.plan := by
  induction fields generalizing row with
  | nil => exact ⟨rfl, rfl⟩
  | cons f fields ih =>
    rw [List.foldl_cons, ih.1, ih.2]
    cases f <;> exact ⟨rfl, rfl⟩

end SubscriptionField

/-- Rows with the same user, plan and columns are the same. -/
theorem Subscription.ext_columns {a b : Subscription} (huser : a.user = b.user)
    (hplan : a.plan = b.plan) (h : ∀ f : SubscriptionField, f.read a = f.read b) : a = b := by
  have hstatus := h .status
  have hid := h .stripeSubscriptionId
  have hcustomer := h .stripeCustomerId
  have hclock := h .lastProviderEventAt
  have hstart := h .currentPeriodStart
  have hend := h .currentPeriodEnd
  have hflag := h .cancelAtPeriodEnd
  have hcancelled := h .cancelledAt
  cases a
  cases b
  simp only [SubscriptionField.read, ColumnValue.status.injEq, ColumnValue.text.injEq,
    ColumnValue.time.injEq, ColumnValue.flag.injEq] at *
  simp only [huser, hplan, hstatus, hid, hcustomer, hclock, hstart, hend, hflag, hcancelled]

/-- An edit names every column it changes, and changes neither user nor plan. -/
structure Edited.Names (sub : Subscription) (e : Edited) : Prop where
  user : e.1.user = sub.user
  plan : e.1.plan = sub.plan
  rest : ∀ f ∉ e.2, f.read e.1 = f.read sub

section Edits
variable {sub : Subscription}

theorem Edited.Names.refl (sub : Subscription) : Edited.Names sub (sub, []) :=
  ⟨rfl, rfl, fun _ _ => rfl⟩

theorem Edited.Names.append {first second : Edited} (h : Edited.Names sub first)
    (h' : Edited.Names first.1 second) : Edited.Names sub (second.1, first.2 ++ second.2) := by
  refine ⟨h'.user.trans h.user, h'.plan.trans h.plan, fun f hf => ?_⟩
  rw [List.mem_append, not_or] at hf
  exact (h'.rest f hf.2).trans (h.rest f hf.1)

/-- **Saved over the row it was read from**, an edit leaves the row as edited. -/
theorem Edited.Names.saved {e : Edited} (h : Edited.Names sub e) :
    e.2.foldl (SubscriptionField.write e.1) sub = e.1 := by
  obtain ⟨huser, hplan⟩ := @SubscriptionField.foldl_write_frame e.1 sub e.2
  refine Subscription.ext_columns (huser.trans h.user.symm) (hplan.trans h.plan.symm) fun f => ?_
  rw [SubscriptionField.read_foldl_write]
  split
  · rfl
  · rename_i hf
    exact (h.rest f hf).symm

/-- Setting one column more. -/
theorem Edited.Names.set {middle final : Subscription} {first : List SubscriptionField}
    (h : Edited.Names sub (middle, first)) (f : SubscriptionField) (huser : final.user = middle.user)
    (hplan : final.plan = middle.plan) (hrest : ∀ g, g ≠ f → g.read final = g.read middle) :
    Edited.Names sub (final, first ++ [f]) :=
  h.append (@Edited.Names.mk middle (final, [f]) huser hplan fun g hg =>
    hrest g fun he => hg (List.mem_singleton.mpr he))

/-! ## What each part of an event does -/

/-- Taking over a period: a known bound replaces the row's. -/
def periodEdit (start finish : Option Time) (sub : Subscription) : Edited :=
  let (sub, changed) : Edited :=
    if start ≠ none ∧ start ≠ sub.currentPeriodStart then
      ({ sub with currentPeriodStart := start }, [.currentPeriodStart])
    else (sub, [])
  if finish ≠ none ∧ finish ≠ sub.currentPeriodEnd then
    ({ sub with currentPeriodEnd := finish }, changed ++ [.currentPeriodEnd])
  else (sub, changed)

theorem periodEdit_names (start finish : Option Time) (sub : Subscription) :
    Edited.Names sub (periodEdit start finish sub) := by
  have hstart : Edited.Names sub ({ sub with currentPeriodStart := start }, [.currentPeriodStart]) :=
    (Edited.Names.refl sub).set .currentPeriodStart rfl rfl fun g hg => by
      cases g <;> first | rfl | exact absurd rfl hg
  have hfinish : ∀ {middle : Subscription} {first : List SubscriptionField},
      Edited.Names sub (middle, first) →
        Edited.Names sub ({ middle with currentPeriodEnd := finish }, first ++ [.currentPeriodEnd]) :=
    fun hfirst => hfirst.set .currentPeriodEnd rfl rfl fun g hg => by
      cases g <;> first | rfl | exact absurd rfl hg
  simp only [periodEdit]
  by_cases hset : start ≠ none ∧ start ≠ sub.currentPeriodStart
  · simp only [if_pos hset]
    split
    · exact hfinish hstart
    · exact hstart
  · simp only [if_neg hset]
    split
    · exact hfinish (Edited.Names.refl sub)
    · exact Edited.Names.refl sub

theorem applyStripePeriod_names (obj : SubscriptionObject) (sub : Subscription) :
    Edited.Names sub (applyStripePeriod obj sub) := periodEdit_names _ _ sub

/-- Taking over when the subscription was cancelled, after the flag. -/
theorem cancelledAt_names {middle : Subscription} {first : List SubscriptionField}
    (hfirst : Edited.Names sub (middle, first)) (cancelled : Option Time) (flag : Option Bool) :
    Edited.Names sub
      (if cancelled ≠ none ∧ cancelled ≠ middle.cancelledAt then
        ({ middle with cancelledAt := cancelled }, first ++ [.cancelledAt])
      else if cancelled = none ∧ flag = some false ∧ middle.cancelledAt ≠ none then
        ({ middle with cancelledAt := none }, first ++ [.cancelledAt])
      else (middle, first)) := by
  have hset : ∀ value : Option Time,
      Edited.Names sub ({ middle with cancelledAt := value }, first ++ [.cancelledAt]) :=
    fun value => hfirst.set .cancelledAt rfl rfl fun g hg => by
      cases g <;> first | rfl | exact absurd rfl hg
  split
  · exact hset _
  · split
    · exact hset _
    · exact hfirst

theorem applyStripeCancellation_names (obj : SubscriptionObject) (sub : Subscription) :
    Edited.Names sub (applyStripeCancellation obj sub) := by
  have hset : ∀ b, Edited.Names sub ({ sub with cancelAtPeriodEnd := b }, [.cancelAtPeriodEnd]) :=
    fun b => (Edited.Names.refl sub).set .cancelAtPeriodEnd rfl rfl fun g hg => by
      cases g <;> first | rfl | exact absurd rfl hg
  simp only [applyStripeCancellation]
  cases obj.cancelAtPeriodEnd with
  | none => exact cancelledAt_names (Edited.Names.refl sub) _ none
  | some b =>
    by_cases hb : b ≠ sub.cancelAtPeriodEnd
    · simp only [if_pos hb]
      exact cancelledAt_names (hset b) _ (some b)
    · simp only [if_neg hb]
      exact cancelledAt_names (Edited.Names.refl sub) _ (some b)

theorem advanceProviderClock_names (event : Option Time) (sub : Subscription) :
    Edited.Names sub (advanceProviderClock event sub) := by
  unfold advanceProviderClock
  split
  · exact Edited.Names.refl sub
  · split
    · exact Edited.Names.refl sub
    · exact (Edited.Names.refl sub).set .lastProviderEventAt rfl rfl fun g hg => by
        cases g <;> first | rfl | exact absurd rfl hg

theorem periodEdit_fst (start finish : Option Time) (sub : Subscription) :
    (periodEdit start finish sub).1 = { sub with
      currentPeriodStart := start.or sub.currentPeriodStart
      currentPeriodEnd := finish.or sub.currentPeriodEnd } := by
  have hor : ∀ new old : Option Time, ¬ (new ≠ none ∧ new ≠ old) → new.or old = old := by
    intro new old h
    cases new with
    | none => rfl
    | some t =>
      by_contra hne
      exact h ⟨nofun, fun he => hne (by rw [← he]; rfl)⟩
  have hsome : ∀ new old : Option Time, new ≠ none → new.or old = new := by
    intro new old h
    cases new with
    | none => exact absurd rfl h
    | some t => rfl
  simp only [periodEdit]
  by_cases hstart : start ≠ none ∧ start ≠ sub.currentPeriodStart
  · simp only [if_pos hstart, hsome _ sub.currentPeriodStart hstart.1]
    split
    · rename_i hend
      rw [hsome _ _ hend.1]
    · rename_i hend
      rw [hor _ _ hend]
  · simp only [if_neg hstart, hor _ _ hstart]
    split
    · rename_i hend
      rw [hsome _ _ hend.1]
    · rename_i hend
      rw [hor _ _ hend]

/-- An object's period replaces what it carries. -/
theorem applyStripePeriod_fst (obj : SubscriptionObject) (sub : Subscription) :
    (applyStripePeriod obj sub).1 = { sub with
      currentPeriodStart := (stripePeriod obj).1.or sub.currentPeriodStart
      currentPeriodEnd := (stripePeriod obj).2.or sub.currentPeriodEnd } := periodEdit_fst _ _ sub

/-- What an object says about when a row was cancelled. -/
def cancelledAtAfter (obj : SubscriptionObject) (sub : Subscription) : Option Time :=
  match epochToDatetime obj.canceledAt with
  | some t => some t
  | none => if obj.cancelAtPeriodEnd = some false then none else sub.cancelledAt

theorem cancelledAt_fst (middle : Subscription) (first : List SubscriptionField)
    (cancelled : Option Time) (flag : Option Bool) :
    (if cancelled ≠ none ∧ cancelled ≠ middle.cancelledAt then
        (({ middle with cancelledAt := cancelled }, first ++ [.cancelledAt]) : Edited)
      else if cancelled = none ∧ flag = some false ∧ middle.cancelledAt ≠ none then
        ({ middle with cancelledAt := none }, first ++ [.cancelledAt])
      else (middle, first)).1 = { middle with
        cancelledAt := match cancelled with
          | some t => some t
          | none => if flag = some false then none else middle.cancelledAt } := by
  cases cancelled with
  | some t =>
    by_cases ht : some t ≠ middle.cancelledAt
    · rw [if_pos ⟨nofun, ht⟩]
    · rw [if_neg fun h => ht h.2, if_neg fun h => Option.some_ne_none _ h.1]
      rw [not_not] at ht
      simp only [ht]
  | none =>
    rw [if_neg fun h => h.1 rfl]
    by_cases hflag : flag = some false
    · by_cases hold : middle.cancelledAt ≠ none
      · rw [if_pos ⟨rfl, hflag, hold⟩]
        simp only [if_pos hflag]
      · rw [if_neg fun h => hold h.2.2]
        rw [not_not] at hold
        simp only [if_pos hflag, ← hold]
    · rw [if_neg fun h => hflag h.2.1]
      simp only [if_neg hflag]

theorem applyStripeCancellation_fst (obj : SubscriptionObject) (sub : Subscription) :
    (applyStripeCancellation obj sub).1 = { sub with
      cancelAtPeriodEnd := obj.cancelAtPeriodEnd.getD sub.cancelAtPeriodEnd
      cancelledAt := cancelledAtAfter obj sub } := by
  simp only [applyStripeCancellation, cancelledAtAfter]
  cases obj.cancelAtPeriodEnd with
  | none => exact cancelledAt_fst sub [] _ none
  | some b =>
    by_cases hb : b ≠ sub.cancelAtPeriodEnd
    · simp only [if_pos hb]
      exact cancelledAt_fst { sub with cancelAtPeriodEnd := b } [.cancelAtPeriodEnd] _ (some b)
    · simp only [if_neg hb]
      rw [not_not] at hb
      subst hb
      exact cancelledAt_fst sub [] _ (some sub.cancelAtPeriodEnd)

@[simp] theorem later_none (s : Option Time) : later s none = s := by
  cases s <;> rfl

/-- The clock only moves forward. -/
theorem advanceProviderClock_fst (event : Option Time) (sub : Subscription) :
    (advanceProviderClock event sub).1 = { sub with
      lastProviderEventAt := later sub.lastProviderEventAt event } := by
  cases event with
  | none =>
    rw [later_none]
    rfl
  | some t =>
    simp only [advanceProviderClock]
    cases hlast : sub.lastProviderEventAt with
    | none => rfl
    | some last =>
      by_cases hle : t ≤ last
      · rw [if_pos ⟨last, rfl, hle⟩]
        simp only [later, max_eq_left hle]
        rw [← hlast]
      · rw [if_neg fun ⟨l, hl, h⟩ => hle (by rw [Option.mem_some_iff.mp hl]; exact h)]
        simp only [later, max_eq_right (not_le.mp hle).le]

end Edits

/-! ## Events -/

/-- A lifecycle event, as it is dispatched. -/
inductive LifecycleEvent
  | updated (event : ProviderEvent SubscriptionObject)
  | deleted (event : ProviderEvent SubscriptionObject)

namespace LifecycleEvent

/-- The event as the provider sent it. -/
def event : LifecycleEvent → ProviderEvent SubscriptionObject
  | updated event => event
  | deleted event => event

/-- The subscription an event is about, as the provider sees it. -/
def object (e : LifecycleEvent) : SubscriptionObject := e.event.object

/-- The provider's clock. -/
def time (e : LifecycleEvent) : Option Time := providerEventTime e.event

/-- The status an event brings; a deletion counts as `canceled`. -/
def statusText : LifecycleEvent → Option String
  | updated event => event.object.status
  | deleted _ => some "canceled"

/-- The handler of an event. -/
def handle (env : Env) : LifecycleEvent → Db → Db
  | updated event => handleSubscriptionUpdated event
  | deleted event => handleSubscriptionDeleted env event

/-- What an event makes of the row it is applied to. -/
def edit (env : Env) : LifecycleEvent → Subscription → Edited
  | updated event => updatedSubscription event.object (providerEventTime event)
  | deleted event => deletedSubscription env event.object (providerEventTime event)

/-- Is an event older than what a row has seen? -/
def IsStale (e : LifecycleEvent) (sub : Subscription) : Prop :=
  isStaleLifecycleEvent sub e.time e.statusText = true

instance (e : LifecycleEvent) : DecidablePred e.IsStale :=
  fun sub => inferInstanceAs (Decidable (isStaleLifecycleEvent sub e.time e.statusText = true))

/-- A row after an event about it. -/
def receive (env : Env) (sub : Subscription) (e : LifecycleEvent) : Subscription :=
  if e.IsStale sub then sub else (e.edit env sub).1

/-- The status an event leaves. -/
def statusAfter (e : LifecycleEvent) (current : SubscriptionStatus) : SubscriptionStatus :=
  (mapStripeStatus e.statusText (some current)).getD current

/-- The cancellation flag an event leaves. -/
def flagAfter : LifecycleEvent → Bool → Bool
  | updated event, current => event.object.cancelAtPeriodEnd.getD current
  | deleted _, _ => false

/-- The cancellation flag an event states; a deletion leaves nothing pending. -/
def flag : LifecycleEvent → Option Bool
  | updated event => event.object.cancelAtPeriodEnd
  | deleted _ => some false

theorem flagAfter_of_flag {e : LifecycleEvent} {b : Bool} (h : e.flag = some b) (current : Bool) :
    e.flagAfter current = b := by
  cases e with
  | updated event =>
    have hflag : event.object.cancelAtPeriodEnd = some b := h
    rw [flagAfter, hflag, Option.getD_some]
  | deleted event => exact Option.some.inj h

/-- When an event leaves the row cancelled. -/
def cancelledAfter (env : Env) : LifecycleEvent → Subscription → Option Time
  | updated event, sub => cancelledAtAfter event.object sub
  | deleted event, _ => some ((epochToDatetime event.object.canceledAt).getD env.now)

variable (env : Env) (e : LifecycleEvent) (sub : Subscription)

/-- **The handlers share their shape.** -/
theorem handle_eq (db : Db) : e.handle env db =
    match resolveLocalSubscription e.object db with
    | (none, db) => stashSubscriptionPeriod e.object e.time db
    | (some (k, sub), db) => if e.IsStale sub then db else applyLifecycle k (e.edit env sub) db := by
  cases e <;> rfl

/-- **What an event makes of a row**, column by column. -/
theorem edit_fst : (e.edit env sub).1 = { sub with
    status := e.statusAfter sub.status
    currentPeriodStart := (stripePeriod e.object).1.or sub.currentPeriodStart
    currentPeriodEnd := (stripePeriod e.object).2.or sub.currentPeriodEnd
    cancelAtPeriodEnd := e.flagAfter sub.cancelAtPeriodEnd
    cancelledAt := e.cancelledAfter env sub
    lastProviderEventAt := later sub.lastProviderEventAt e.time } := by
  cases e with
  | updated event =>
    simp only [edit, updatedSubscription, advanceProviderClock_fst, applyStripeCancellation_fst,
      applyStripePeriod_fst]
    rfl
  | deleted event =>
    simp only [edit, deletedSubscription, advanceProviderClock_fst, applyStripePeriod_fst]
    rfl

/-- The columns an event changes are the columns it saves. -/
theorem edit_names : Edited.Names sub (e.edit env sub) := by
  cases e with
  | updated event =>
    have hstatus : ∀ status, Edited.Names sub ({ sub with status }, [.status]) := fun status =>
      (Edited.Names.refl sub).set .status rfl rfl fun g hg => by
        cases g <;> first | rfl | exact absurd rfl hg
    have hall := (hstatus ((mapStripeStatus event.object.status (some sub.status)).getD
      sub.status)).append (((applyStripePeriod_names event.object _).append
        (applyStripeCancellation_names event.object _)).append
          (advanceProviderClock_names (providerEventTime event) _))
    exact hall
  | deleted event =>
    have hfirst : ∀ status cancelledAt cancelAtPeriodEnd, Edited.Names sub
        ({ sub with status, cancelledAt, cancelAtPeriodEnd },
          [.status, .cancelledAt, .cancelAtPeriodEnd]) := fun status cancelledAt cancelAtPeriodEnd =>
      ⟨rfl, rfl, fun g hg => by
        cases g <;> first | rfl | exact absurd (by simp) hg⟩
    have hall := ((hfirst .cancelled (some ((epochToDatetime event.object.canceledAt).getD env.now))
      false).append (applyStripePeriod_names event.object _)).append
        (advanceProviderClock_names (providerEventTime event) _)
    exact hall

/-- An event leaves the ids, the user and the plan of the row it is applied to. -/
theorem receive_frame : (e.receive env sub).stripeSubscriptionId = sub.stripeSubscriptionId ∧
    (e.receive env sub).stripeCustomerId = sub.stripeCustomerId ∧
    (e.receive env sub).user = sub.user ∧ (e.receive env sub).plan = sub.plan := by
  unfold receive
  split
  · exact ⟨rfl, rfl, rfl, rfl⟩
  · rw [edit_fst]
    exact ⟨rfl, rfl, rfl, rfl⟩

end LifecycleEvent

/-! ## On a bound row -/

section Writes
variable (k : ℕ) (db : Db)

@[simp] theorem stampSubscriptionPeriod_subscriptions (sub : Subscription) :
    (stampSubscriptionPeriod sub db).subscriptions = db.subscriptions := by
  unfold stampSubscriptionPeriod
  split <;> rfl

theorem applyLifecycle_subscriptions (edited : Edited) :
    (applyLifecycle k edited db).subscriptions = (saveSubscription k edited.1 edited.2 db).subscriptions := by
  simp [applyLifecycle, announceSubscription]

/-- **Read and saved in one go**, the row under the key becomes the edited one. -/
theorem saveSubscription_get? {sub : Subscription} {edited : Edited}
    (hk : db.subscriptions.get? k = some sub) (hnames : Edited.Names sub edited) (j : ℕ) :
    (saveSubscription k edited.1 edited.2 db).subscriptions.get? j =
      if j = k then some edited.1 else db.subscriptions.get? j := by
  rw [saveSubscription, Table.get?_modify]
  by_cases hj : j = k
  · rw [if_pos hj, if_pos hj, hj, hk, Option.map_some, hnames.saved]
  · rw [if_neg hj, if_neg hj]

theorem applyLifecycle_get? {sub : Subscription} {edited : Edited}
    (hk : db.subscriptions.get? k = some sub) (hnames : Edited.Names sub edited) (j : ℕ) :
    (applyLifecycle k edited db).subscriptions.get? j =
      if j = k then some edited.1 else db.subscriptions.get? j := by
  rw [applyLifecycle_subscriptions, saveSubscription_get? k db hk hnames]

end Writes

/-! ## Finding the row -/

/-- The columns an event may change. -/
structure Lifecycle where
  status : SubscriptionStatus
  currentPeriodStart : Option Time
  currentPeriodEnd : Option Time
  cancelAtPeriodEnd : Bool
  cancelledAt : Option Time
  lastProviderEventAt : Option Time
  deriving DecidableEq

/-- The lifecycle columns of a row. -/
def Subscription.lifecycle (sub : Subscription) : Lifecycle where
  status := sub.status
  currentPeriodStart := sub.currentPeriodStart
  currentPeriodEnd := sub.currentPeriodEnd
  cancelAtPeriodEnd := sub.cancelAtPeriodEnd
  cancelledAt := sub.cancelledAt
  lastProviderEventAt := sub.lastProviderEventAt

section Adoption
variable (id customer : Option String) (sub : Subscription)

/-- **A row that already has its ids** adopts nothing; one that lacks them takes them over. -/
theorem adoptIds_fst : (adoptIds id customer sub).1 = { sub with
    stripeSubscriptionId :=
      if (nonempty id).isSome ∧ nonempty sub.stripeSubscriptionId = none then id
      else sub.stripeSubscriptionId
    stripeCustomerId :=
      if (nonempty customer).isSome ∧ nonempty sub.stripeCustomerId = none then customer
      else sub.stripeCustomerId } := by
  simp only [adoptIds]
  by_cases hid : (nonempty id).isSome ∧ nonempty sub.stripeSubscriptionId = none
  · simp only [if_pos hid]
    split <;> rfl
  · simp only [if_neg hid]
    split <;> rfl

theorem adoptIds_lifecycle : (adoptIds id customer sub).1.lifecycle = sub.lifecycle := by
  rw [adoptIds_fst]
  rfl

theorem adoptIds_names : Edited.Names sub (adoptIds id customer sub) := by
  have hid : Edited.Names sub ({ sub with stripeSubscriptionId := id }, [.stripeSubscriptionId]) :=
    (Edited.Names.refl sub).set .stripeSubscriptionId rfl rfl fun g hg => by
      cases g <;> first | rfl | exact absurd rfl hg
  have hcustomer : ∀ {middle : Subscription} {first : List SubscriptionField},
      Edited.Names sub (middle, first) →
        Edited.Names sub ({ middle with stripeCustomerId := customer }, first ++ [.stripeCustomerId]) :=
    fun hfirst => hfirst.set .stripeCustomerId rfl rfl fun g hg => by
      cases g <;> first | rfl | exact absurd rfl hg
  simp only [adoptIds]
  by_cases hadopt : (nonempty id).isSome ∧ nonempty sub.stripeSubscriptionId = none
  · simp only [if_pos hadopt]
    split
    · exact hcustomer hid
    · exact hid
  · simp only [if_neg hadopt]
    split
    · exact hcustomer (Edited.Names.refl sub)
    · exact Edited.Names.refl sub

end Adoption

/-- How a row is found: by its subscription id; where none carries it by its customer, and
then by its user, as the row stands after adopting what it lacked. -/
inductive Resolved (obj : SubscriptionObject) (db : Db) : Option (ℕ × Subscription) × Db → Prop
  | byId (k : ℕ) (sub : Subscription)
      (hfind : findSubscription (nonempty obj.id) Subscription.stripeSubscriptionId db = some (k, sub)) :
      Resolved obj db (some (k, sub), db)
  | byCustomer (k : ℕ) (sub : Subscription)
      (hid : findSubscription (nonempty obj.id) Subscription.stripeSubscriptionId db = none)
      (hfind : findSubscription (nonempty obj.customer) Subscription.stripeCustomerId db = some (k, sub)) :
      Resolved obj db (some (k, (adoptIds obj.id none sub).1),
        saveSubscription k (adoptIds obj.id none sub).1 (adoptIds obj.id none sub).2 db)
  | byUser (k : ℕ) (sub : Subscription)
      (hid : findSubscription (nonempty obj.id) Subscription.stripeSubscriptionId db = none)
      (hcustomer : findSubscription (nonempty obj.customer) Subscription.stripeCustomerId db = none)
      (hfind : findSubscription obj.userId Subscription.user db = some (k, sub)) :
      Resolved obj db (some (k, (adoptIds obj.id obj.customer sub).1),
        saveSubscription k (adoptIds obj.id obj.customer sub).1 (adoptIds obj.id obj.customer sub).2 db)
  | nowhere
      (hid : findSubscription (nonempty obj.id) Subscription.stripeSubscriptionId db = none)
      (hcustomer : findSubscription (nonempty obj.customer) Subscription.stripeCustomerId db = none)
      (huser : findSubscription obj.userId Subscription.user db = none) :
      Resolved obj db (none, db)

theorem resolveLocalSubscription_resolved (obj : SubscriptionObject) (db : Db) :
    Resolved obj db (resolveLocalSubscription obj db) := by
  unfold resolveLocalSubscription
  cases hid : findSubscription (nonempty obj.id) Subscription.stripeSubscriptionId db with
  | some r => exact .byId r.1 r.2 hid
  | none =>
    cases hcustomer : findSubscription (nonempty obj.customer) Subscription.stripeCustomerId db with
    | some r => exact .byCustomer r.1 r.2 hid hcustomer
    | none =>
      cases huser : findSubscription obj.userId Subscription.user db with
      | some r => exact .byUser r.1 r.2 hid hcustomer huser
      | none => exact .nowhere hid hcustomer huser

/-- A found row carries the key it was found by. -/
theorem findSubscription_some {Key : Type} [DecidableEq Key] {key : Option Key}
    {column : Subscription → Option Key} {db : Db} {k : ℕ} {sub : Subscription}
    (h : findSubscription key column db = some (k, sub)) :
    ∃ value, key = some value ∧ column sub = some value ∧ db.subscriptions.get? k = some sub := by
  obtain ⟨value, rfl, hfind⟩ := Option.bind_eq_some_iff.mp h
  obtain ⟨hget, hvalue⟩ := Table.find?_some hfind
  exact ⟨value, rfl, hvalue, hget⟩

/-- No row carries a key that finds nothing. -/
theorem findSubscription_none {Key : Type} [DecidableEq Key] {value : Key}
    {column : Subscription → Option Key} {db : Db}
    (h : findSubscription (some value) column db = none) {k : ℕ} {sub : Subscription}
    (hk : db.subscriptions.get? k = some sub) : column sub ≠ some value := by
  have hfind : db.subscriptions.find? (fun row => column row = some value) = none := h
  exact Table.find?_none hfind hk

/-- A provider subscription's row: it carries the id, and no other row does. -/
structure Db.BoundTo (db : Db) (id : String) (k : ℕ) : Prop where
  named : id ≠ ""
  row : ∃ sub, db.subscriptions.get? k = some sub ∧ sub.stripeSubscriptionId = some id
  only : ∀ j sub, db.subscriptions.get? j = some sub → sub.stripeSubscriptionId = some id → j = k

section Bound
variable {id : String} {k : ℕ} {db : Db}

theorem nonempty_of_ne {id : String} (h : id ≠ "") : nonempty (some id) = some id :=
  if_neg h

/-- An event about the subscription finds its row, and nothing is adopted. -/
theorem Db.BoundTo.resolve (h : db.BoundTo id k) {obj : SubscriptionObject} (hid : obj.id = some id)
    {sub : Subscription} (hk : db.subscriptions.get? k = some sub) :
    resolveLocalSubscription obj db = (some (k, sub), db) := by
  obtain ⟨sub', hk', hsub⟩ := h.row
  obtain rfl := Option.some.inj (hk.symm.trans hk')
  have hfind : findSubscription (nonempty obj.id) Subscription.stripeSubscriptionId db =
      some (k, sub) := by
    rw [hid, nonempty_of_ne h.named]
    exact Table.find?_eq_some_of_unique hk hsub h.only
  unfold resolveLocalSubscription
  rw [hfind]

/-- An event about a bound row finds it without a write. -/
theorem Db.BoundTo.resolve_db (h : db.BoundTo id k) {obj : SubscriptionObject}
    (hid : obj.id = some id) : (resolveLocalSubscription obj db).2 = db := by
  obtain ⟨sub, hk, -⟩ := h.row
  rw [h.resolve hid hk]

/-- A row stays the subscription's while it keeps the id and the others stay as they are. -/
theorem Db.BoundTo.of_get? (h : db.BoundTo id k) {db' : Db}
    (hother : ∀ j, j ≠ k → db'.subscriptions.get? j = db.subscriptions.get? j) {sub : Subscription}
    (hk : db'.subscriptions.get? k = some sub) (hsub : sub.stripeSubscriptionId = some id) :
    db'.BoundTo id k := by
  refine ⟨h.named, ⟨sub, hk, hsub⟩, fun j row hj hrow => ?_⟩
  by_contra hne
  rw [hother j hne] at hj
  exact hne (h.only j row hj hrow)

/-- **An event about a bound row** makes of that row what the event says, and of no other
row anything. -/
theorem LifecycleEvent.handle_bound (h : db.BoundTo id k) (env : Env) {e : LifecycleEvent}
    (hid : e.object.id = some id) (j : ℕ) : (e.handle env db).subscriptions.get? j =
      if j = k then (db.subscriptions.get? j).map fun sub => e.receive env sub
      else db.subscriptions.get? j := by
  obtain ⟨sub, hk, -⟩ := h.row
  rw [e.handle_eq, h.resolve hid hk]
  dsimp only
  by_cases hstale : e.IsStale sub
  · rw [if_pos hstale]
    split
    · rename_i hj
      rw [hj, hk, Option.map_some, LifecycleEvent.receive, if_pos hstale]
    · rfl
  · rw [if_neg hstale, applyLifecycle_get? k db hk (e.edit_names env sub)]
    split
    · rename_i hj
      rw [hj, hk, Option.map_some, LifecycleEvent.receive, if_neg hstale]
    · rfl

theorem LifecycleEvent.bound_handle (h : db.BoundTo id k) (env : Env) {e : LifecycleEvent}
    (hid : e.object.id = some id) : (e.handle env db).BoundTo id k := by
  have hget := LifecycleEvent.handle_bound h env hid
  obtain ⟨sub, hk, hsub⟩ := h.row
  refine h.of_get? (fun j hj => by rw [hget, if_neg hj]) ?_
    ((e.receive_frame env sub).1.trans hsub)
  rw [hget, if_pos rfl, hk, Option.map_some]

/-- Deliver events one after the other. -/
def deliverEvents (deliveries : List (Env × LifecycleEvent)) (db : Db) : Db :=
  deliveries.foldl (fun db d => d.2.handle d.1 db) db

/-- **Deliveries about a bound row** reach it one by one. -/
theorem deliverEvents_bound (h : db.BoundTo id k) {deliveries : List (Env × LifecycleEvent)}
    (habout : ∀ d ∈ deliveries, d.2.object.id = some id) :
    (deliverEvents deliveries db).subscriptions.get? k = (db.subscriptions.get? k).map fun sub =>
      deliveries.foldl (fun sub d => d.2.receive d.1 sub) sub := by
  induction deliveries generalizing db with
  | nil => exact Option.map_id'.symm
  | cons d deliveries ih =>
    have hid := habout d List.mem_cons_self
    have hrest := ih (LifecycleEvent.bound_handle h d.1 hid)
      fun b hb => habout b (List.mem_cons_of_mem _ hb)
    rw [LifecycleEvent.handle_bound h d.1 hid, if_pos rfl, Option.map_map] at hrest
    exact hrest

theorem bound_deliverEvents (h : db.BoundTo id k) {deliveries : List (Env × LifecycleEvent)}
    (habout : ∀ d ∈ deliveries, d.2.object.id = some id) :
    (deliverEvents deliveries db).BoundTo id k := by
  induction deliveries generalizing db with
  | nil => exact h
  | cons d deliveries ih =>
    exact ih (LifecycleEvent.bound_handle h d.1 (habout d List.mem_cons_self))
      fun b hb => habout b (List.mem_cons_of_mem _ hb)

end Bound

end StapelBilling
