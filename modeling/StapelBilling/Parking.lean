import StapelBilling.OwnSubscription

/-! # The parked path

An event whose subscription has no row yet leaves its period, status and time in the stash,
where a later event of the same or a newer time replaces them.  The checkout that creates the
row applies what is parked and drops it.
-/
namespace StapelBilling
open Store

/-! ## The stash -/

/-- What is parked for a subscription. -/
def Db.parked (db : Db) (id : String) : Option PendingSubscriptionPeriod :=
  (db.pendingPeriods.find? fun pending => pending.stripeSubscriptionId = id).map Prod.snd

/-- An object's period, status and time over what was parked. -/
def PendingSubscriptionPeriod.over (obj : SubscriptionObject) (event : Option Time)
    (pending : PendingSubscriptionPeriod) : PendingSubscriptionPeriod :=
  { pending with
    stripeCustomerId := obj.customer.getD ""
    status := obj.status.getD ""
    providerEventAt := event.or pending.providerEventAt
    currentPeriodStart := (stripePeriod obj).1.or pending.currentPeriodStart
    currentPeriodEnd := (stripePeriod obj).2.or pending.currentPeriodEnd }

/-- Is what is parked newer than an event? -/
def PendingSubscriptionPeriod.Past (event : Option Time) (pending : PendingSubscriptionPeriod) : Prop :=
  ∃ t ∈ event, ∃ parked ∈ pending.providerEventAt, t < parked

instance (event : Option Time) : DecidablePred (PendingSubscriptionPeriod.Past event) :=
  fun pending => by unfold PendingSubscriptionPeriod.Past; infer_instance

/-- What an event leaves parked. -/
def parkedAfter (id : String) (obj : SubscriptionObject) (event : Option Time) :
    Option PendingSubscriptionPeriod → PendingSubscriptionPeriod
  | none => PendingSubscriptionPeriod.over obj event { stripeSubscriptionId := id }
  | some pending => if pending.Past event then pending else pending.over obj event

section Stash
variable {id : String} {obj : SubscriptionObject} {event : Option Time} {db : Db}

theorem stashSubscriptionPeriod_eq (obj : SubscriptionObject) (event : Option Time) (db : Db) :
    ∃ pendingPeriods, stashSubscriptionPeriod obj event db = { db with pendingPeriods } := by
  unfold stashSubscriptionPeriod
  split
  · exact ⟨db.pendingPeriods, rfl⟩
  · dsimp only
    split
    · split
      · exact ⟨db.pendingPeriods, rfl⟩
      · exact ⟨_, rfl⟩
    · exact ⟨_, rfl⟩

theorem parked_stash (hid : obj.id = some id) (hne : id ≠ "") :
    (stashSubscriptionPeriod obj event db).parked id = some (parkedAfter id obj event (db.parked id)) := by
  unfold stashSubscriptionPeriod
  rw [hid, nonempty_of_ne hne]
  dsimp only
  cases hfind : db.pendingPeriods.find? fun pending => pending.stripeSubscriptionId = id with
  | none =>
    have hnew := Table.find?_insert_of_none hfind
      (a := PendingSubscriptionPeriod.over obj event { stripeSubscriptionId := id }) rfl
    rw [Db.parked, Db.parked, hfind]
    exact congrArg (Option.map Prod.snd) hnew
  | some r =>
    obtain ⟨k, pending⟩ := r
    have hpending := (Table.find?_some hfind).2
    dsimp only
    split
    · rename_i hpast
      rw [Db.parked, hfind, Option.map_some, parkedAfter]
      exact congrArg some (if_pos hpast).symm
    · rename_i hpast
      have hpast : ¬ pending.Past event := hpast
      have hover := Table.find?_modify (f := PendingSubscriptionPeriod.over obj event) hfind hpending
      have hbefore : db.parked id = some pending := by rw [Db.parked, hfind, Option.map_some]
      rw [hbefore, parkedAfter, if_neg hpast]
      exact congrArg (Option.map Prod.snd) hover

end Stash

/-! ## Events without a row -/

/-- No row is found for an object. -/
def Db.Unknown (db : Db) (obj : SubscriptionObject) : Prop :=
  (resolveLocalSubscription obj db).1 = none

section Unknown
variable {obj : SubscriptionObject} {db db' : Db}

theorem Db.Unknown.finds (h : db.Unknown obj) :
    findSubscription (nonempty obj.id) Subscription.stripeSubscriptionId db = none ∧
      findSubscription (nonempty obj.customer) Subscription.stripeCustomerId db = none ∧
      findSubscription obj.userId Subscription.user db = none := by
  have hspec := resolveLocalSubscription_resolved obj db
  unfold Db.Unknown at h
  generalize resolveLocalSubscription obj db = r at hspec h
  cases hspec with
  | byId _ _ _ => cases h
  | byCustomer _ _ _ _ => cases h
  | byUser _ _ _ _ _ => cases h
  | nowhere hid hcustomer huser => exact ⟨hid, hcustomer, huser⟩

theorem Db.Unknown.resolve (h : db.Unknown obj) (hsame : db'.subscriptions = db.subscriptions) :
    resolveLocalSubscription obj db' = (none, db') := by
  obtain ⟨hid, hcustomer, huser⟩ := h.finds
  have hcongr : ∀ {Key : Type} [DecidableEq Key] (key : Option Key)
      (column : Subscription → Option Key),
      findSubscription key column db' = findSubscription key column db := by
    intro Key _ key column
    unfold findSubscription
    rw [hsame]
  unfold resolveLocalSubscription
  rw [hcongr, hcongr, hcongr, hid, hcustomer, huser]

theorem LifecycleEvent.handle_unknown {e : LifecycleEvent} (env : Env) (h : db.Unknown e.object)
    (hsame : db'.subscriptions = db.subscriptions) :
    e.handle env db' = stashSubscriptionPeriod e.object e.time db' := by
  rw [e.handle_eq, h.resolve hsame]

variable {id : String} {deliveries : List (Env × LifecycleEvent)}

/-- **Events without a row** only fill the stash. -/
theorem deliverEvents_unknown (hne : id ≠ "") (habout : ∀ d ∈ deliveries, d.2.object.id = some id)
    (hunknown : ∀ d ∈ deliveries, db.Unknown d.2.object)
    (hsame : db'.subscriptions = db.subscriptions) :
    (∃ pendingPeriods, deliverEvents deliveries db' = { db' with pendingPeriods }) ∧
      (deliverEvents deliveries db').parked id = deliveries.foldl
        (fun parked d => some (parkedAfter id d.2.object d.2.time parked)) (db'.parked id) := by
  induction deliveries generalizing db' with
  | nil => exact ⟨⟨db'.pendingPeriods, rfl⟩, rfl⟩
  | cons d deliveries ih =>
    have hfirst := LifecycleEvent.handle_unknown d.1 (hunknown d List.mem_cons_self) hsame
    obtain ⟨pending, hstash⟩ := stashSubscriptionPeriod_eq d.2.object d.2.time db'
    have hparked := @parked_stash _ _ d.2.time db' (habout d List.mem_cons_self) hne
    have hkept : (stashSubscriptionPeriod d.2.object d.2.time db').subscriptions =
        db.subscriptions := (stashSubscriptionPeriod_subscriptions _ _ _).trans hsame
    have hrest := ih (fun b hb => habout b (List.mem_cons_of_mem _ hb))
      (fun b hb => hunknown b (List.mem_cons_of_mem _ hb)) hkept
    have hrun : deliverEvents (d :: deliveries) db' =
        deliverEvents deliveries (stashSubscriptionPeriod d.2.object d.2.time db') :=
      congrArg (deliverEvents deliveries) hfirst
    rw [hrun, hrest.2, hparked, List.foldl_cons]
    obtain ⟨pending', hpending'⟩ := hrest.1
    refine ⟨⟨pending', ?_⟩, rfl⟩
    rw [hpending', hstash]

end Unknown

/-! ## The newest parked event -/

/-- The event of a sequence that is the last delivered among those of the newest time. -/
structure LastNewest (deliveries : List (Env × LifecycleEvent)) (d : Env × LifecycleEvent) (t : Time) :
    Prop where
  split : ∃ before after, deliveries = before ++ d :: after ∧
    ∀ b ∈ after, ∀ t' ∈ b.2.time, t' < t
  time : d.2.time = some t
  newest : ∀ b ∈ deliveries, ∀ t' ∈ b.2.time, t' ≤ t

section NewestParked
variable {id : String} {deliveries : List (Env × LifecycleEvent)}

/-- The clock of the stash. -/
def parkedClock (parked : Option PendingSubscriptionPeriod) : WithBot ℤ :=
  match parked.bind PendingSubscriptionPeriod.providerEventAt with
  | none => ⊥
  | some t => (t : WithBot ℤ)

/-- **What stays parked** is the status and time of the event that was delivered last among
the newest. -/
theorem parked_lastNewest (hne : deliveries ≠ [])
    (htime : ∀ d ∈ deliveries, ∃ t, d.2.time = some t) :
    ∃ pending d t, deliveries.foldl
        (fun parked d => some (parkedAfter id d.2.object d.2.time parked)) none = some pending ∧
      LastNewest deliveries d t ∧ pending.status = d.2.object.status.getD "" ∧
      pending.providerEventAt = some t := by
  -- an event no older than what is parked replaces it
  have hover : ∀ (d : Env × LifecycleEvent) (t : Time), d.2.time = some t → ∀ parked,
      parkedClock parked ≤ (t : WithBot ℤ) →
      ∃ pending, parkedAfter id d.2.object d.2.time parked = pending ∧
        pending.status = d.2.object.status.getD "" ∧ pending.providerEventAt = some t := by
    intro d t ht parked hle
    cases parked with
    | none => exact ⟨_, rfl, rfl, by rw [ht]; rfl⟩
    | some pending =>
      refine ⟨_, rfl, ?_, ?_⟩
      all_goals
        rw [parkedAfter, if_neg, ht]
        · rfl
        · rintro ⟨t', ht', at', hat, hlt⟩
          obtain rfl := Option.some.inj (ht.symm.trans ht')
          unfold parkedClock at hle
          rw [Option.bind_some, hat] at hle
          exact absurd (WithBot.coe_le_coe.mp hle) (not_le.mpr hlt)
  -- and an older one leaves what is parked
  have htakes : ∀ d ∈ deliveries, TakesUp parkedClock (fun d : Env × LifecycleEvent => d.2.time.getD 0)
      (fun parked d => some (parkedAfter id d.2.object d.2.time parked)) d := by
    intro d hd
    obtain ⟨t, ht⟩ := htime d hd
    refine ⟨fun parked hle => ?_, fun parked hle => ?_⟩
    · rw [ht, Option.getD_some] at hle
      obtain ⟨pending, hpending, -, hat⟩ := hover d t ht parked hle
      rw [hpending, parkedClock, Option.bind_some, hat, ht, Option.getD_some]
    · rw [ht, Option.getD_some] at hle
      cases parked with
      | none => exact absurd bot_le hle
      | some pending =>
        unfold parkedClock at hle
        rw [Option.bind_some] at hle
        cases hat : pending.providerEventAt with
        | none =>
          rw [hat] at hle
          exact absurd bot_le hle
        | some at' =>
          rw [hat] at hle
          refine congrArg some (if_pos ⟨t, ht, at', hat, ?_⟩)
          exact not_le.mp fun h => hle (WithBot.coe_le_coe.mpr h)
  rcases foldl_newest (s := (none : Option PendingSubscriptionPeriod)) htakes with
    ⟨-, hold⟩ | ⟨before, d, after, hsplit, hclock, hmax, hafter, hend⟩
  · obtain ⟨d, hd⟩ := List.exists_mem_of_ne_nil _ hne
    exact absurd (hold d hd) (not_lt_bot)
  · have hmem : d ∈ deliveries := by
      rw [hsplit]
      exact List.mem_append_right _ List.mem_cons_self
    obtain ⟨t, ht⟩ := htime d hmem
    rw [ht, Option.getD_some] at hclock
    obtain ⟨pending, hpending, hstatus, hat⟩ := hover d t ht _ hclock
    refine ⟨pending, d, t, by rw [hend, hpending], ⟨⟨before, after, hsplit, ?_⟩, ht, ?_⟩, hstatus, hat⟩
    · intro b hb t' ht'
      have hlt := hafter b hb
      rwa [ht, ht', Option.getD_some, Option.getD_some] at hlt
    · intro b hb t' ht'
      have hle := hmax b hb
      rwa [ht, ht', Option.getD_some, Option.getD_some] at hle

end NewestParked

end StapelBilling
