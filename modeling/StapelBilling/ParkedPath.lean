import StapelBilling.EventOrder
import StapelBilling.Opening

/-! # Parked and direct

The same events before their checkout and after it.  Delivered after it they reach the row,
where the most advanced of the newest wins and brings its cancellation flag; delivered before
it the last of the newest stays parked, without its flag.
-/
namespace StapelBilling
open Store

/-! ## The row of a subscription -/

/-- The row an id finds. -/
def Db.rowOf (db : Db) (id : String) : Option Subscription :=
  (findSubscription (some id) Subscription.stripeSubscriptionId db).map Prod.snd

theorem Db.BoundTo.rowOf {db : Db} {id : String} {k : ℕ} (h : db.BoundTo id k) {sub : Subscription}
    (hk : db.subscriptions.get? k = some sub) : db.rowOf id = some sub := by
  obtain ⟨sub', hk', hid⟩ := h.row
  obtain rfl := Option.some.inj (hk.symm.trans hk')
  unfold Db.rowOf
  rw [findSubscription_unique (Option.some_ne_none id) hk hid h.only, Option.map_some]

/-- What a row tells a reader about the lifecycle. -/
def Subscription.standing (sub : Subscription) : SubscriptionStatus × Bool :=
  (sub.status, sub.cancelAtPeriodEnd)

/-! ## The row a checkout writes -/

section Written
variable {plan : String} {obj : CheckoutSession} {t : Time} {sub : Subscription}

/-- The status a checkout leaves: a stale one leaves the row's. -/
def checkoutStatus (t : Time) (sub : Subscription) : SubscriptionStatus :=
  if isStaleLifecycleEvent sub (some t) (some "active") then sub.status else .active

theorem checkoutDefaults_status :
    (checkoutDefaults plan obj (some t) sub).status = checkoutStatus t sub := by
  unfold checkoutDefaults checkoutStatus
  split <;> rfl

/-- The clock a checkout leaves: the later of its own time and the row's. -/
theorem checkoutDefaults_clock : (checkoutDefaults plan obj (some t) sub).lastProviderEventAt =
    some (max t (sub.lastProviderEventAt.getD t)) := by
  unfold checkoutDefaults
  split
  · rename_i hstale
    unfold isStaleLifecycleEvent at hstale
    cases hlast : sub.lastProviderEventAt with
    | none =>
      rw [hlast] at hstale
      cases hstale
    | some last =>
      rw [hlast] at hstale
      dsimp only at hstale ⊢
      rw [Option.getD_some]
      by_cases hlt : last < t
      · rw [if_pos hlt] at hstale
        cases hstale
      · rw [max_eq_right (not_lt.mp hlt)]
  · rfl

theorem checkoutDefaults_flag :
    (checkoutDefaults plan obj (some t) sub).cancelAtPeriodEnd = sub.cancelAtPeriodEnd := by
  unfold checkoutDefaults
  split <;> rfl

theorem checkoutDefaults_id {event : Option Time} :
    (checkoutDefaults plan obj event sub).stripeSubscriptionId = obj.subscription := by
  unfold checkoutDefaults
  split <;> rfl

end Written

/-! ## The two deliveries -/

/-- Events about one subscription that no row is known for, all later than its checkout: each
has a time and a known status and states its cancellation flag. -/
structure EventsBeforeRow (db : Db) (id : String) (tCheckout : Time)
    (deliveries : List (Env × LifecycleEvent)) : Prop where
  delivered : deliveries ≠ []
  about : ∀ d ∈ deliveries, d.2.object.id = some id
  updated : ∀ d ∈ deliveries, ∃ event, d.2 = .updated event
  unknown : ∀ d ∈ deliveries, db.Unknown d.2.object
  dated : ∀ d ∈ deliveries, ∃ t status, d.2.Dated t status ∧ tCheckout < t
  flagged : ∀ d ∈ deliveries, ∃ b, d.2.flag = some b
  nothingParked : db.parked id = none

section Paths
variable {id plan : String} {db : Db} {user : UserId} {entry : PlanCatalogEntry} {tCheckout : Time}
  {event : ProviderEvent CheckoutSession} {deliveries : List (Env × LifecycleEvent)}

/-- A subscription that no other row carries has the row that the checkout writes. -/
theorem FirstCheckout.bound {env : Env} {dbAfter : Db}
    (h : FirstCheckout env event.object db user plan entry id)
    (honly : ∀ j row, db.subscriptions.get? j = some row → row.stripeSubscriptionId = some id →
      j = db.userKey user)
    (hok : handleCheckoutCompleted env event db = .ok dbAfter) :
    dbAfter.BoundTo id (db.userKey user) := by
  obtain ⟨-, hrows, -⟩ := h.row hok
  refine ⟨h.named, ⟨_, (hrows _).trans (if_pos rfl), ?_⟩, fun j row hj hid => ?_⟩
  · have hid : (checkoutDefaults plan event.object (providerEventTime event)
        (db.userRow user)).stripeSubscriptionId = some id := checkoutDefaults_id.trans h.subscription
    unfold Subscription.withParked
    split
    · exact hid
    · rw [PendingSubscriptionPeriod.applyTo_fst]
      exact hid
  · by_contra hne
    rw [hrows, if_neg hne] at hj
    exact hne (honly j row hj hid)

/-- **After the checkout**, the events reach the row it wrote. -/
theorem direct_path {env : Env} {dbDirect : Db}
    (h : FirstCheckout env event.object db user plan entry id)
    (hevents : EventsBeforeRow db id tCheckout deliveries)
    (hok : handleCheckoutCompleted env event db = .ok dbDirect) :
    (deliverEvents deliveries dbDirect).rowOf id = some (deliveries.foldl
      (fun sub d => d.2.receive d.1 sub)
      (checkoutDefaults plan event.object (providerEventTime event) (db.userRow user))) := by
  obtain ⟨d, hd⟩ := List.exists_mem_of_ne_nil _ hevents.delivered
  have hnone := (hevents.unknown d hd).finds.1
  rw [hevents.about d hd, nonempty_of_ne h.named] at hnone
  have hbound := h.bound (fun _ _ hj hrow => absurd hrow (findSubscription_none hnone hj)) hok
  obtain ⟨-, hrows, -⟩ := h.row hok
  have hrun := deliverEvents_bound hbound hevents.about
  rw [hrows, if_pos rfl, hevents.nothingParked] at hrun
  refine Db.BoundTo.rowOf (k := db.userKey user) ?_ hrun
  exact bound_deliverEvents hbound hevents.about

/-- A checkout is taken up by the same users and the same claims. -/
theorem FirstCheckout.congr {env : Env} (h : FirstCheckout env event.object db user plan entry id)
    {db' : Db} (husers : db'.users = db.users) (hclaims : db'.providerGrants = db.providerGrants) :
    FirstCheckout env event.object db' user plan entry id where
  buyer := by
    rw [← h.buyer]
    unfold checkoutBuyer
    rw [husers]
  noPackage := h.noPackage
  sells := h.sells
  listed := h.listed
  agreed := h.agreed
  named := h.named
  subscription := h.subscription
  unclaimed := by
    intro hnone
    refine h.unclaimed ?_
    unfold claimProviderObject at hnone ⊢
    rw [hclaims] at hnone
    split
    · rfl
    · rename_i ext hext
      rw [hext] at hnone
      dsimp only at hnone
      split
      · rfl
      · rename_i hempty
        rw [if_neg hempty] at hnone
        split at hnone
        · rfl
        · cases hnone

/-- **Before the checkout**, the last of the newest events is applied to the row it writes. -/
theorem parked_path {env : Env} {dbParked : Db}
    (h : FirstCheckout env event.object db user plan entry id)
    (hevents : EventsBeforeRow db id tCheckout deliveries)
    (hok : handleCheckoutCompleted env event (deliverEvents deliveries db) = .ok dbParked) :
    ∃ pending d t, LastNewest deliveries d t ∧ pending.status = d.2.object.status.getD "" ∧
      pending.providerEventAt = some t ∧
      dbParked.rowOf id = some ((checkoutDefaults plan event.object (providerEventTime event)
        (db.userRow user)).withParked (some pending)) := by
  obtain ⟨⟨pendingPeriods, hdb⟩, hparked⟩ :=
    @deliverEvents_unknown db db _ _ h.named hevents.about hevents.unknown rfl
  rw [hevents.nothingParked] at hparked
  obtain ⟨pending, d, t, hpending, hnewest, hstatus, hat⟩ := @parked_lastNewest id deliveries
    hevents.delivered fun d hd => by
      obtain ⟨t, status, hdate, -⟩ := hevents.dated d hd
      exact ⟨t, hdate.time⟩
  rw [hpending] at hparked
  refine ⟨pending, d, t, hnewest, hstatus, hat, ?_⟩
  rw [hdb] at hok hparked
  have hcheckout : FirstCheckout env event.object { db with pendingPeriods } user plan entry id :=
    h.congr rfl rfl
  obtain ⟨b, hb⟩ := List.exists_mem_of_ne_nil _ hevents.delivered
  have hnone := (hevents.unknown b hb).finds.1
  rw [hevents.about b hb, nonempty_of_ne h.named] at hnone
  have hbound := hcheckout.bound (fun _ _ hj hrow => absurd hrow (findSubscription_none hnone hj)) hok
  obtain ⟨-, hrows, -⟩ := hcheckout.row hok
  have hrow := hrows (Db.userKey { db with pendingPeriods } user)
  rw [if_pos rfl, hparked] at hrow
  exact hbound.rowOf hrow

/-- The last of the newest events is one event. -/
theorem LastNewest.unique {d d' : Env × LifecycleEvent} {t t' : Time}
    (h : LastNewest deliveries d t) (h' : LastNewest deliveries d' t') : d = d' ∧ t = t' := by
  obtain ⟨before, after, hsplit, hafter⟩ := h.split
  obtain ⟨before', after', hsplit', hafter'⟩ := h'.split
  have hd : d ∈ deliveries := by
    rw [hsplit]
    exact List.mem_append_right _ List.mem_cons_self
  have hd' : d' ∈ deliveries := by
    rw [hsplit']
    exact List.mem_append_right _ List.mem_cons_self
  have ht : t = t' := le_antisymm (h'.newest d hd t h.time) (h.newest d' hd' t' h'.time)
  subst ht
  refine ⟨split_unique (hsplit.symm.trans hsplit') ?_ ?_, rfl⟩
  · exact fun hmem => lt_irrefl t (hafter' d hmem t h.time)
  · exact fun hmem => lt_irrefl t (hafter d' hmem t h'.time)

/-- What makes the two paths agree: the newest time is before the row's clock, or the event
delivered last of that time is as advanced as any of them and as the row, and states the
flag the row has. -/
structure AgreesWithDirect (deliveries : List (Env × LifecycleEvent)) (tCheckout : Time)
    (row : Subscription) (d : Env × LifecycleEvent) (t : Time) (status : SubscriptionStatus) : Prop where
  advanced : ∀ b ∈ deliveries, ∀ status', b.2.Dated t status' →
    lifecycleRank status' ≤ lifecycleRank status
  tied : t = max tCheckout (row.lastProviderEventAt.getD tCheckout) →
    lifecycleRank (checkoutStatus tCheckout row) ≤ lifecycleRank status
  flag : d.2.flag = some row.cancelAtPeriodEnd

/-- What the parked event leaves on the row. -/
theorem withParked_standing {row : Subscription} {pending : PendingSubscriptionPeriod}
    {d : Env × LifecycleEvent} {t last : Time} {status : SubscriptionStatus}
    (hupdated : ∃ event, d.2 = .updated event) (hdate : d.2.Dated t status)
    (hstatus : pending.status = d.2.object.status.getD "") (hat : pending.providerEventAt = some t)
    (hlast : row.lastProviderEventAt = some last) :
    (row.withParked (some pending)).standing =
      (if t < last then row.status else status, row.cancelAtPeriodEnd) := by
  have hstale : pending.IsStale row ↔ t < last := by
    unfold PendingSubscriptionPeriod.IsStale
    rw [hat, hlast]
    simp
  have hmapped : (mapStripeStatus (some pending.status) (some row.status)).getD row.status = status := by
    obtain ⟨event, hevent⟩ := hupdated
    have hknown := hdate.status
    rw [hevent] at hknown
    unfold LifecycleEvent.statusText mapStripeStatus at hknown
    dsimp only at hknown
    rw [Option.or_none] at hknown
    obtain ⟨raw, hraw, hlookup⟩ := Option.bind_eq_some_iff.mp hknown
    have hobject : d.2.object.status = some raw := by
      rw [hevent]
      exact hraw
    rw [hstatus, hobject, Option.getD_some]
    unfold mapStripeStatus
    rw [Option.bind_some, hlookup]
    rfl
  unfold Subscription.standing Subscription.withParked
  dsimp only
  rw [PendingSubscriptionPeriod.applyTo_fst]
  dsimp only
  by_cases hlt : t < last
  · rw [if_pos (hstale.mpr hlt), if_pos hlt]
  · rw [if_neg fun h => hlt (hstale.mp h), if_neg hlt, hmapped]

/-- **What the events leave on the row**: nothing, when all of them stand below it; else the
status and flag of the last one of the highest place. -/
theorem received_standing {row : Subscription} {last : Time}
    (hevents : EventsBeforeRow db id tCheckout deliveries)
    (hlast : row.lastProviderEventAt = some last) :
    ((deliveries.foldl (fun sub d => d.2.receive d.1 sub) row).standing =
        (row.status, row.cancelAtPeriodEnd) ∧
      ∀ d ∈ deliveries, d.2.place < lifecyclePlace last row.status) ∨
    ∃ before d after, deliveries = before ++ d :: after ∧ lifecyclePlace last row.status ≤ d.2.place ∧
      (∀ b ∈ deliveries, b.2.place ≤ d.2.place) ∧ (∀ b ∈ after, b.2.place < d.2.place) ∧
      ∃ t status flag, d.2.Dated t status ∧ d.2.flag = some flag ∧
        (deliveries.foldl (fun sub d => d.2.receive d.1 sub) row).standing = (status, flag) := by
  have htakes : ∀ d ∈ deliveries, TakesUp Subscription.place
      (fun d : Env × LifecycleEvent => d.2.place) (fun sub d => d.2.receive d.1 sub) d := by
    intro d hd
    obtain ⟨t, status, hdate, -⟩ := hevents.dated d hd
    exact hdate.takesUp d.1
  have hplace : row.place = (lifecyclePlace last row.status : WithBot LifecyclePlace) := by
    unfold Subscription.place
    rw [hlast]
    rfl
  rcases foldl_newest (s := row) htakes with ⟨hsame, hold⟩ | ⟨before, d, after, hsplit, hclock, hmax, hafter, hend⟩
  · refine Or.inl ⟨by rw [hsame]; rfl, fun d hd => ?_⟩
    have hlt := hold d hd
    rwa [hplace, WithBot.coe_lt_coe] at hlt
  · have hmem : d ∈ deliveries := by
      rw [hsplit]
      exact List.mem_append_right _ List.mem_cons_self
    obtain ⟨t, status, hdate, -⟩ := hevents.dated d hmem
    obtain ⟨flag, hflag⟩ := hevents.flagged d hmem
    have hle := (TakesUp.le_foldl (s := row) fun b hb => htakes b (by
      rw [hsplit]
      exact List.mem_append_left _ hb)).trans hclock
    rw [hplace, WithBot.coe_le_coe] at hle
    refine Or.inr ⟨before, d, after, hsplit, hle, hmax, hafter, t, status, flag, hdate, hflag, ?_⟩
    rw [hend, LifecycleEvent.receive, if_neg, LifecycleEvent.edit_fst]
    · unfold Subscription.standing
      rw [hdate.statusAfter, LifecycleEvent.flagAfter_of_flag hflag]
    · rw [hdate.isStale_iff, ← hdate.place_eq, not_not]
      exact hclock

/-- **The parked path agrees with the direct path** on status and cancellation flag exactly
when the newest event is older than the row the checkout finds, or the last of the newest
ones is the most advanced of them and states the flag that row has. -/
theorem parked_agrees_iff {envDirect envParked : Env} {dbDirect dbParked : Db}
    (hdirect : FirstCheckout envDirect event.object db user plan entry id)
    (hparked : FirstCheckout envParked event.object db user plan entry id)
    (hcreated : providerEventTime event = some tCheckout)
    (hevents : EventsBeforeRow db id tCheckout deliveries)
    (hokDirect : handleCheckoutCompleted envDirect event db = .ok dbDirect)
    (hokParked : handleCheckoutCompleted envParked event (deliverEvents deliveries db) = .ok dbParked) :
    ((deliverEvents deliveries dbDirect).rowOf id).map Subscription.standing =
      (dbParked.rowOf id).map Subscription.standing ↔
    ∃ d t status, LastNewest deliveries d t ∧ d.2.Dated t status ∧
      (t < max tCheckout ((db.userRow user).lastProviderEventAt.getD tCheckout) ∨
        AgreesWithDirect deliveries tCheckout (db.userRow user) d t status) := by
  obtain ⟨pending, d, t, hnewest, hstatus, hat, hrowParked⟩ := parked_path hparked hevents hokParked
  have hmem : d ∈ deliveries := by
    obtain ⟨before, after, hsplit, -⟩ := hnewest.split
    rw [hsplit]
    exact List.mem_append_right _ List.mem_cons_self
  obtain ⟨t', status, hdate, -⟩ := hevents.dated d hmem
  obtain rfl := Option.some.inj (hnewest.time.symm.trans hdate.time)
  have hlast := @checkoutDefaults_clock plan event.object tCheckout (db.userRow user)
  have hσ := @checkoutDefaults_status plan event.object tCheckout (db.userRow user)
  have hc := @checkoutDefaults_flag plan event.object tCheckout (db.userRow user)
  rw [direct_path hdirect hevents hokDirect, hrowParked, Option.map_some, Option.map_some,
    Option.some.injEq, hcreated, withParked_standing (hevents.updated d hmem) hdate hstatus hat hlast]
  have hone : (∃ d t status, LastNewest deliveries d t ∧ d.2.Dated t status ∧
      (t < max tCheckout ((db.userRow user).lastProviderEventAt.getD tCheckout) ∨
        AgreesWithDirect deliveries tCheckout (db.userRow user) d t status)) ↔
      (t < max tCheckout ((db.userRow user).lastProviderEventAt.getD tCheckout) ∨
        AgreesWithDirect deliveries tCheckout (db.userRow user) d t status) := by
    constructor
    · rintro ⟨d', t', status', hnewest', hdate', h⟩
      obtain ⟨rfl, rfl⟩ := hnewest.unique hnewest'
      obtain ⟨-, rfl⟩ := hdate.unique hdate'
      exact h
    · exact fun h => ⟨d, t, status, hnewest, hdate, h⟩
  rw [hone]
  have hplace : ∀ {b : Env × LifecycleEvent}, b ∈ deliveries → ∀ {tb statusb}, b.2.Dated tb statusb →
      tb ≤ t := fun hb _ _ hdateb => hnewest.newest _ hb _ hdateb.time
  rcases received_standing hevents hlast with ⟨hsame, hold⟩ | ⟨before, b, after, hsplit, hle, hmax, hafter, tb, statusb,
    flagb, hdateb, hflagb, hend⟩
  · -- The row drops every event.
    have hbelow := hold d hmem
    rw [hdate.place_eq, lifecyclePlace, lifecyclePlace, Prod.Lex.toLex_lt_toLex, hσ] at hbelow
    rw [hsame, hσ, hc]
    by_cases hlt : t < max tCheckout ((db.userRow user).lastProviderEventAt.getD tCheckout)
    · rw [if_pos hlt]
      exact ⟨fun _ => Or.inl hlt, fun _ => rfl⟩
    · rw [if_neg hlt]
      obtain ⟨htie, hrank⟩ := hbelow.resolve_left hlt
      constructor
      · intro heq
        rw [(Prod.mk.inj heq).1] at hrank
        exact absurd hrank (lt_irrefl _)
      · rintro (h | h)
        · exact absurd h hlt
        · exact absurd (h.tied htie) (not_le.mpr hrank)
  · have hb : b ∈ deliveries := by
      rw [hsplit]
      exact List.mem_append_right _ List.mem_cons_self
    -- The event that wins is of the newest time.
    have htime : tb = t := by
      refine le_antisymm (hplace hb hdateb) ?_
      have hdb := hmax d hmem
      rw [hdate.place_eq, hdateb.place_eq, lifecyclePlace, lifecyclePlace,
        Prod.Lex.toLex_le_toLex] at hdb
      rcases hdb with hdb | ⟨hdb, -⟩
      · exact hdb.le
      · exact hdb.le
    subst htime
    rw [hdateb.place_eq, lifecyclePlace, lifecyclePlace, Prod.Lex.toLex_le_toLex, hσ] at hle
    have hlt : ¬ tb < max tCheckout ((db.userRow user).lastProviderEventAt.getD tCheckout) := by
      rcases hle with hle | ⟨hle, -⟩
      · exact not_lt.mpr hle.le
      · exact not_lt.mpr hle.le
    have htop : ∀ b' ∈ deliveries, ∀ status', b'.2.Dated tb status' →
        lifecycleRank status' ≤ lifecycleRank statusb := by
      intro b' hb' status' hdate'
      have hle' := hmax b' hb'
      rw [hdate'.place_eq, hdateb.place_eq, lifecyclePlace, lifecyclePlace,
        Prod.Lex.toLex_le_toLex] at hle'
      exact (hle'.resolve_left (lt_irrefl _)).2
    -- Where the last of the newest is as advanced as the winner, it is the winner.
    have hsameEvent : status = statusb → d = b := by
      rintro rfl
      obtain ⟨before', after', hsplit', hafter'⟩ := hnewest.split
      refine split_unique (hsplit'.symm.trans hsplit) ?_ ?_
      · intro hmem'
        have hlt' := hafter d hmem'
        rw [hdate.place_eq, hdateb.place_eq] at hlt'
        exact lt_irrefl _ hlt'
      · exact fun hmem' => lt_irrefl tb (hafter' b hmem' tb hdateb.time)
    rw [hend, hσ, hc, if_neg hlt, or_iff_right hlt]
    constructor
    · intro heq
      obtain ⟨hstatusEq, hflagEq⟩ := Prod.mk.inj heq
      obtain rfl := hsameEvent hstatusEq.symm
      refine ⟨fun b' hb' status' hdate' => ?_, fun htie => ?_, ?_⟩
      · rw [← hstatusEq]
        exact htop b' hb' status' hdate'
      · rw [← hstatusEq]
        rcases hle with hle | ⟨-, hle⟩
        · exact absurd htie.symm (ne_of_lt hle)
        · exact hle
      · rw [hflagb, hflagEq]
    · intro h
      have hrank : status = statusb := lifecycleRank_injective
        (le_antisymm (htop d hmem status hdate) (h.advanced b hb statusb hdateb))
      obtain rfl := hsameEvent hrank
      have hflag := hflagb.symm.trans h.flag
      rw [hrank, Option.some.inj hflag]

end Paths

/-! ## A parked cancellation -/

/-- The update of second twenty, with or without a cancellation. -/
def updateAtTwenty (cancelAtPeriodEnd : Bool) : Env × LifecycleEvent :=
  (Env.plain 21000000, .updated
    { id := some "evt_1", type := "customer.subscription.updated", created := some 20
      object := monthOf "active" cancelAtPeriodEnd })

theorem updateAtTwenty_dated (b : Bool) : (updateAtTwenty b).2.Dated 20000000 .active where
  time := by
    have htwenty : epochToDatetime (some 20) = some 20000000 := by decide +kernel
    exact htwenty
  status := by
    have hactive : mapStripeStatus (some "active") none = some .active := by decide
    exact hactive

theorem updateAtTwenty_before (b : Bool) :
    EventsBeforeRow newBuyer "sub_1" 10000000 [updateAtTwenty b] where
  delivered := List.cons_ne_nil _ _
  about := fun d hd => by rw [List.mem_singleton.mp hd]; rfl
  updated := fun d hd => by
    obtain rfl := List.mem_singleton.mp hd
    exact ⟨_, rfl⟩
  unknown := fun d hd => by rw [List.mem_singleton.mp hd]; rfl
  dated := fun d hd => by
    rw [List.mem_singleton.mp hd]
    exact ⟨_, _, updateAtTwenty_dated b, by decide⟩
  flagged := fun d hd => by rw [List.mem_singleton.mp hd]; exact ⟨b, rfl⟩
  nothingParked := rfl

theorem proCheckout_then_update : ∃ db,
    handleCheckoutCompleted (Env.plain 11000000) proCheckout newBuyer = .ok db ∧
      ((deliverEvents [updateAtTwenty true] db).rowOf "sub_1").map Subscription.standing =
        some (.active, true) := by
  rw [SubscriptionCheckout.handle_agreed (proCheckout_sells 11000000 (by decide))]
  exact exists_of_toOption (by decide +kernel)

theorem cancellation_then_proCheckout : ∃ db,
    handleCheckoutCompleted (Env.plain 22000000) proCheckout
      (deliverEvents [updateAtTwenty true] newBuyer) = .ok db ∧
      (db.rowOf "sub_1").map Subscription.standing = some (.active, false) := by
  rw [SubscriptionCheckout.handle_agreed (proCheckout_sells 22000000 (by decide +kernel))]
  exact exists_of_toOption (by decide +kernel)

theorem update_then_proCheckout : ∃ db,
    handleCheckoutCompleted (Env.plain 22000000) proCheckout
      (deliverEvents [updateAtTwenty false] newBuyer) = .ok db ∧
      (db.rowOf "sub_1").map Subscription.standing = some (.active, false) := by
  rw [SubscriptionCheckout.handle_agreed (proCheckout_sells 22000000 (by decide +kernel))]
  exact exists_of_toOption (by decide +kernel)

/-- **The parked path forgets the cancellation**: before the checkout the update leaves a row
that is not to be cancelled, after it one that is. -/
theorem parked_cancellation_lost : ∃ dbDirect dbParked,
    handleCheckoutCompleted (Env.plain 11000000) proCheckout newBuyer = .ok dbDirect ∧
    handleCheckoutCompleted (Env.plain 22000000) proCheckout
      (deliverEvents [updateAtTwenty true] newBuyer) = .ok dbParked ∧
    EventsBeforeRow newBuyer "sub_1" 10000000 [updateAtTwenty true] ∧
    ((deliverEvents [updateAtTwenty true] dbDirect).rowOf "sub_1").map Subscription.standing =
      some (.active, true) ∧
    (dbParked.rowOf "sub_1").map Subscription.standing = some (.active, false) ∧
    ¬ ((deliverEvents [updateAtTwenty true] dbDirect).rowOf "sub_1").map Subscription.standing =
      (dbParked.rowOf "sub_1").map Subscription.standing := by
  obtain ⟨dbDirect, hokDirect, hstandingDirect⟩ := proCheckout_then_update
  obtain ⟨dbParked, hokParked, hstandingParked⟩ := cancellation_then_proCheckout
  refine ⟨dbDirect, dbParked, hokDirect, hokParked, updateAtTwenty_before true, hstandingDirect,
    hstandingParked, ?_⟩
  rw [hstandingDirect, hstandingParked]
  decide

/-- An update without a cancellation leaves the same either way. -/
theorem parked_update_agrees : ∃ dbDirect dbParked,
    handleCheckoutCompleted (Env.plain 11000000) proCheckout newBuyer = .ok dbDirect ∧
    handleCheckoutCompleted (Env.plain 22000000) proCheckout
      (deliverEvents [updateAtTwenty false] newBuyer) = .ok dbParked ∧
    ((deliverEvents [updateAtTwenty false] dbDirect).rowOf "sub_1").map Subscription.standing =
      (dbParked.rowOf "sub_1").map Subscription.standing := by
  obtain ⟨dbDirect, hokDirect, -⟩ := proCheckout_then_update
  obtain ⟨dbParked, hokParked, -⟩ := update_then_proCheckout
  have hcreated : providerEventTime proCheckout = some 10000000 := by decide +kernel
  refine ⟨dbDirect, dbParked, hokDirect, hokParked, ?_⟩
  refine (parked_agrees_iff (proCheckout_first _) (proCheckout_first _) hcreated
    (updateAtTwenty_before false) hokDirect hokParked).mpr
      ⟨updateAtTwenty false, _, _, ⟨⟨[], [], rfl, fun _ h => absurd h List.not_mem_nil⟩,
        (updateAtTwenty_dated false).time, ?_⟩, updateAtTwenty_dated false, Or.inr ⟨?_, ?_, rfl⟩⟩
  · intro b hb t' ht'
    rw [List.mem_singleton.mp hb, (updateAtTwenty_dated false).time] at ht'
    exact (Option.some.inj ht').ge
  · intro b hb status' hdate
    rw [List.mem_singleton.mp hb] at hdate
    rw [((updateAtTwenty_dated false).unique hdate).2]
  · intro _
    decide

end StapelBilling
