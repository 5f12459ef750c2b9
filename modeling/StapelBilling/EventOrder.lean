import StapelBilling.Calls
import StapelBilling.Lifecycle

/-! # Provider-time order

What a row has taken up is ranked by provider time first and by how far along the lifecycle
its status is second.  An event below the row's rank is dropped, any other replaces the
row's status and clock: deliveries in any order, with any repetition, end with the event of
the highest rank.
-/
namespace StapelBilling
open Store

/-! ## Ranks -/

/-- A place in provider time: the instant, then the lifecycle rank of the status. -/
abbrev LifecyclePlace := ℤ ×ₗ ℕ

/-- How far a row has come. -/
def Subscription.place (sub : Subscription) : WithBot LifecyclePlace :=
  match sub.lastProviderEventAt with
  | none => ⊥
  | some last => ((toLex (last, lifecycleRank sub.status) : LifecyclePlace) : WithBot LifecyclePlace)

/-- Where an event at a known time with a known status stands. -/
def lifecyclePlace (t : Time) (status : SubscriptionStatus) : LifecyclePlace :=
  toLex (t, lifecycleRank status)

theorem lifecycleRank_injective : Function.Injective lifecycleRank := by
  intro a b h
  cases a <;> cases b <;> first | rfl | exact absurd h (by decide)

namespace LifecycleEvent

/-- An event at a known time with a known status. -/
structure Dated (e : LifecycleEvent) (t : Time) (status : SubscriptionStatus) : Prop where
  time : e.time = some t
  status : mapStripeStatus e.statusText none = some status

variable {e : LifecycleEvent} {t : Time} {status : SubscriptionStatus}

theorem Dated.unique (h : e.Dated t status) {t' : Time} {status' : SubscriptionStatus}
    (h' : e.Dated t' status') : t' = t ∧ status' = status :=
  ⟨Option.some.inj (h'.time.symm.trans h.time), Option.some.inj (h'.status.symm.trans h.status)⟩

/-- A known status replaces whatever the row had. -/
theorem Dated.statusAfter (h : e.Dated t status) (current : SubscriptionStatus) :
    e.statusAfter current = status := by
  have hstatus := h.status
  unfold mapStripeStatus at hstatus
  unfold LifecycleEvent.statusAfter mapStripeStatus
  cases hmap : e.statusText.bind fun raw => stripeStatusMap.lookup raw with
  | none =>
    rw [hmap] at hstatus
    cases hstatus
  | some known =>
    rw [hmap] at hstatus
    exact Option.some.inj hstatus

/-- **What is stale** is what stands below the row. -/
theorem Dated.isStale_iff (h : e.Dated t status) (sub : Subscription) :
    e.IsStale sub ↔ ¬ sub.place ≤ lifecyclePlace t status := by
  unfold IsStale isStaleLifecycleEvent Subscription.place lifecyclePlace
  rw [h.time, h.status]
  cases hlast : sub.lastProviderEventAt with
  | none => simp
  | some last =>
    dsimp only
    rw [WithBot.coe_le_coe, Prod.Lex.toLex_le_toLex]
    by_cases hlt : last < t
    · simp [hlt]
    · by_cases hgt : t < last
      · simp [hlt, hgt, ne_of_gt hgt]
      · have heq : last = t := le_antisymm (not_lt.mp hgt) (not_lt.mp hlt)
        simp [heq]

/-- An event that is taken up leaves the row where the event stands. -/
theorem Dated.place_receive (h : e.Dated t status) (env : Env) {sub : Subscription}
    (hfresh : ¬ e.IsStale sub) : (e.receive env sub).place = lifecyclePlace t status := by
  have hle : later sub.lastProviderEventAt (some t) = some t := by
    rw [h.isStale_iff, not_not] at hfresh
    unfold Subscription.place at hfresh
    cases hlast : sub.lastProviderEventAt with
    | none => rfl
    | some last =>
      rw [hlast] at hfresh
      dsimp only at hfresh
      rw [WithBot.coe_le_coe, lifecyclePlace, Prod.Lex.toLex_le_toLex] at hfresh
      refine congrArg some (max_eq_right ?_)
      rcases hfresh with hlt | ⟨heq, -⟩
      · exact hlt.le
      · exact heq.le
  unfold receive
  rw [if_neg hfresh, edit_fst, h.time, h.statusAfter, hle]
  rfl

/-- An event that states its whole period and whether the subscription is to end with it. -/
structure Complete (e : LifecycleEvent) : Prop where
  start : (stripePeriod e.object).1 ≠ none
  finish : (stripePeriod e.object).2 ≠ none
  flag : e.object.cancelAtPeriodEnd ≠ none

theorem Complete.states_flag (h : e.Complete) : ∃ b, e.flag = some b := by
  cases e with
  | updated event => exact Option.ne_none_iff_exists'.mp h.flag
  | deleted event => exact ⟨false, rfl⟩

/-- Where an event stands; one without a time or a known status stands at the bottom. -/
def place (e : LifecycleEvent) : LifecyclePlace :=
  toLex (e.time.getD 0, ((mapStripeStatus e.statusText none).map lifecycleRank).getD 0)

theorem Dated.place_eq (h : e.Dated t status) : e.place = lifecyclePlace t status := by
  rw [place, h.time, h.status]
  rfl

/-- A dated event takes up a row that is not past it and drops out on any other. -/
theorem Dated.takesUp (h : e.Dated t status) (env : Env) :
    TakesUp Subscription.place (fun d : Env × LifecycleEvent => d.2.place)
      (fun sub d => d.2.receive d.1 sub) (env, e) where
  accepts := by
    intro sub hle
    dsimp only at hle ⊢
    rw [h.place_eq] at hle ⊢
    exact h.place_receive env fun hstale => (h.isStale_iff sub).mp hstale hle
  drops := by
    intro sub hle
    dsimp only at hle ⊢
    rw [h.place_eq] at hle
    rw [receive, if_pos ((h.isStale_iff sub).mpr hle)]

end LifecycleEvent

/-! ## Convergence -/

/-- An event of a set that no other event of it outranks, by time and then by status. -/
def IsNewest (deliveries : List (Env × LifecycleEvent)) (e : LifecycleEvent) : Prop :=
  (∃ env, (env, e) ∈ deliveries) ∧ ∀ d ∈ deliveries, d.2.place ≤ e.place

/-- Two newest events agree on time and status. -/
theorem IsNewest.agree {deliveries : List (Env × LifecycleEvent)} {e e' : LifecycleEvent}
    (h : IsNewest deliveries e) (h' : IsNewest deliveries e') {t t' : Time}
    {status status' : SubscriptionStatus} (hd : e.Dated t status) (hd' : e'.Dated t' status') :
    t' = t ∧ status' = status := by
  obtain ⟨env, hmem⟩ := h.1
  obtain ⟨env', hmem'⟩ := h'.1
  have hplace : e'.place = e.place := le_antisymm (h.2 _ hmem') (h'.2 _ hmem)
  rw [hd.place_eq, hd'.place_eq] at hplace
  obtain ⟨htime, hrank⟩ := Prod.mk.inj (congrArg ofLex hplace)
  exact ⟨htime, lifecycleRank_injective hrank⟩

section Convergence
variable {id : String} {k : ℕ} {db : Db} {deliveries : List (Env × LifecycleEvent)}

/-- After the deliveries the row is what a newest event made of some row. -/
theorem deliverEvents_newest (h : db.BoundTo id k) (hne : deliveries ≠ [])
    (habout : ∀ d ∈ deliveries, d.2.object.id = some id)
    (hdated : ∀ d ∈ deliveries, ∃ t status, d.2.Dated t status)
    (holder : ∀ sub, db.subscriptions.get? k = some sub → ∀ d ∈ deliveries,
      sub.place ≤ d.2.place) :
    ∃ (env : Env) (e : LifecycleEvent) (sub : Subscription), IsNewest deliveries e ∧
      ¬ e.IsStale sub ∧
      (deliverEvents deliveries db).subscriptions.get? k = some (e.receive env sub) := by
  obtain ⟨sub, hk, -⟩ := h.row
  have htakes : ∀ d ∈ deliveries, TakesUp Subscription.place
      (fun d : Env × LifecycleEvent => d.2.place) (fun sub d => d.2.receive d.1 sub) d := by
    intro d hd
    obtain ⟨t, status, hdate⟩ := hdated d hd
    exact hdate.takesUp d.1
  have hrun := deliverEvents_bound h habout
  rw [hk, Option.map_some] at hrun
  rcases foldl_newest (s := sub) htakes with ⟨-, hold⟩ | ⟨before, d, after, hsplit, hclock, hmax, -, hend⟩
  · obtain ⟨d, hd⟩ := List.exists_mem_of_ne_nil _ hne
    exact absurd (holder sub hk d hd) (not_le.mpr (hold d hd))
  · have hmem : d ∈ deliveries := by
      rw [hsplit]
      exact List.mem_append_right _ List.mem_cons_self
    obtain ⟨t, status, hdate⟩ := hdated d hmem
    refine ⟨d.1, d.2, _, ⟨⟨d.1, hmem⟩, hmax⟩, fun hstale => ?_, by rw [hrun, hend]⟩
    rw [hdate.isStale_iff, ← hdate.place_eq] at hstale
    exact hstale hclock

/-- **Provider-time convergence.**  Events about a bound row that are all newer than what
the row has seen, delivered in any order and any number of times each, leave it with the
status of the event that is newest by time and lifecycle rank and with the newest time; and
when no two of them share a time and each states its period and flag, with the newest
event's period and flag. -/
theorem deliveries_converge (h : db.BoundTo id k) (hne : deliveries ≠ [])
    (habout : ∀ d ∈ deliveries, d.2.object.id = some id)
    (hdated : ∀ d ∈ deliveries, ∃ t status, d.2.Dated t status)
    (holder : ∀ sub, db.subscriptions.get? k = some sub → ∀ last ∈ sub.lastProviderEventAt,
      ∀ d ∈ deliveries, ∀ t ∈ d.2.time, last < t) :
    (∃ e, IsNewest deliveries e) ∧
    ∃ row, (deliverEvents deliveries db).subscriptions.get? k = some row ∧
      (∀ e t status, IsNewest deliveries e → e.Dated t status →
        row.status = status ∧ row.lastProviderEventAt = some t) ∧
      (∀ d ∈ deliveries, ∀ t ∈ d.2.time, ∀ last ∈ row.lastProviderEventAt, t ≤ last) ∧
      ((∀ d ∈ deliveries, ∀ d' ∈ deliveries, d.2.time = d'.2.time → d.2 = d'.2) →
        (∀ d ∈ deliveries, d.2.Complete) → ∀ e, IsNewest deliveries e →
          row.currentPeriodStart = (stripePeriod e.object).1 ∧
          row.currentPeriodEnd = (stripePeriod e.object).2 ∧
          some row.cancelAtPeriodEnd = e.flag) := by
  have hplace : ∀ sub, db.subscriptions.get? k = some sub → ∀ d ∈ deliveries,
      sub.place ≤ d.2.place := by
    intro sub hk d hd
    obtain ⟨t, status, hdate⟩ := hdated d hd
    rw [hdate.place_eq]
    unfold Subscription.place
    cases hlast : sub.lastProviderEventAt with
    | none => exact bot_le
    | some last =>
      dsimp only
      rw [WithBot.coe_le_coe, lifecyclePlace, Prod.Lex.toLex_le_toLex]
      exact Or.inl (holder sub hk last hlast d hd t hdate.time)
  obtain ⟨env, e, sub, hnewest, hfresh, hrow⟩ := deliverEvents_newest h hne habout hdated hplace
  obtain ⟨env', hmem⟩ := hnewest.1
  obtain ⟨t, status, hdate⟩ := hdated _ hmem
  have hclock : (e.receive env sub).place = e.place := by
    rw [hdate.place_eq, hdate.place_receive env hfresh]
  have hreceive : e.receive env sub = (e.edit env sub).1 := if_neg hfresh
  have hstatus : (e.receive env sub).status = status := by
    rw [hreceive, LifecycleEvent.edit_fst]
    exact hdate.statusAfter _
  have hlast : (e.receive env sub).lastProviderEventAt = some t := by
    rw [hdate.place_eq] at hclock
    unfold Subscription.place at hclock
    cases hl : (e.receive env sub).lastProviderEventAt with
    | none =>
      rw [hl] at hclock
      exact absurd hclock.symm (WithBot.coe_ne_bot)
    | some last =>
      rw [hl] at hclock
      exact congrArg some (Prod.mk.inj (congrArg ofLex (WithBot.coe_inj.mp hclock))).1
  refine ⟨⟨e, hnewest⟩, e.receive env sub, hrow, ?_, ?_, ?_⟩
  · intro e' t' status' hnewest' hdate'
    obtain ⟨rfl, rfl⟩ := hnewest.agree hnewest' hdate hdate'
    exact ⟨hstatus, hlast⟩
  · intro d hd t' ht' last hl
    obtain ⟨td, statusd, hd'⟩ := hdated d hd
    obtain rfl := Option.some.inj (hd'.time.symm.trans ht')
    obtain rfl := Option.some.inj (hlast.symm.trans hl)
    have hle := hnewest.2 d hd
    rw [hd'.place_eq, hdate.place_eq, lifecyclePlace, lifecyclePlace, Prod.Lex.toLex_le_toLex] at hle
    rcases hle with hlt | ⟨heq, -⟩
    · exact hlt.le
    · exact heq.le
  · intro hdistinct hcomplete e' hnewest'
    obtain ⟨env'', hmem'⟩ := hnewest'.1
    obtain ⟨t', status', hdate'⟩ := hdated _ hmem'
    obtain ⟨rfl, -⟩ := hnewest.agree hnewest' hdate hdate'
    -- One event stands at that time.
    obtain rfl : e' = e := hdistinct _ hmem' _ hmem (hdate'.time.trans hdate.time.symm)
    have hwhole := hcomplete _ hmem
    obtain ⟨start, hstart⟩ := Option.ne_none_iff_exists'.mp hwhole.start
    obtain ⟨finish, hfinish⟩ := Option.ne_none_iff_exists'.mp hwhole.finish
    obtain ⟨b, hb⟩ := hwhole.states_flag
    rw [hreceive, LifecycleEvent.edit_fst, hb]
    dsimp only
    rw [LifecycleEvent.flagAfter_of_flag hb, hstart, hfinish]
    exact ⟨rfl, rfl, rfl⟩

end Convergence

/-! A cancellation delivered before the update it followed. -/

/-- One bound row that has seen nothing. -/
def boundRow : Db :=
  { users := [1]
    subscriptions := Table.empty.insert { user := some 1, stripeSubscriptionId := some "sub_1" } }

theorem boundRow_boundTo : boundRow.BoundTo "sub_1" 0 where
  named := by decide
  row := ⟨_, rfl, rfl⟩
  only := by
    intro j sub hj _
    rw [boundRow, Table.get?_insert] at hj
    split at hj
    · assumption
    · exact Table.get?_empty_ne hj

/-- A subscription object of one month. -/
def monthOf (status : String) (cancelAtPeriodEnd : Bool) : SubscriptionObject :=
  { id := some "sub_1", customer := some "cus_1", status := some status,
    currentPeriodStart := some 100, currentPeriodEnd := some 200,
    cancelAtPeriodEnd := some cancelAtPeriodEnd }

/-- The deletion of second twenty. -/
def deletionAtTwenty : LifecycleEvent :=
  .deleted
    { id := some "evt_2", type := "customer.subscription.deleted", created := some 20
      object := monthOf "canceled" false }

/-- The update of second ten. -/
def updateAtTen : LifecycleEvent :=
  .updated
    { id := some "evt_1", type := "customer.subscription.updated", created := some 10
      object := monthOf "active" true }

theorem deletionAtTwenty_dated : deletionAtTwenty.Dated 20000000 .cancelled where
  time := by decide +kernel
  status := by decide

theorem updateAtTen_dated : updateAtTen.Dated 10000000 .active where
  time := by decide +kernel
  status := by decide

/-- The late update changes nothing: the row is cancelled at second twenty. -/
theorem late_update_converges : ∃ row,
    (deliverEvents [(Env.plain 0, deletionAtTwenty), (Env.plain 1, updateAtTen)]
      boundRow).subscriptions.get? 0 = some row ∧
      row.status = .cancelled ∧ row.lastProviderEventAt = some 20000000 := by
  have hdated : ∀ d ∈ [(Env.plain 0, deletionAtTwenty), (Env.plain 1, updateAtTen)],
      ∃ t status, d.2.Dated t status := by
    intro d hd
    rcases List.mem_cons.mp hd with rfl | hd
    · exact ⟨_, _, deletionAtTwenty_dated⟩
    · obtain rfl := List.mem_singleton.mp hd
      exact ⟨_, _, updateAtTen_dated⟩
  obtain ⟨-, row, hrow, hnewest, -⟩ := deliveries_converge boundRow_boundTo (List.cons_ne_nil _ _)
    (by intro d hd; fin_cases hd <;> rfl) hdated (by
      intro sub hsub last hlast
      obtain rfl := Option.some.inj (hsub.symm.trans rfl)
      cases hlast)
  refine ⟨row, hrow, hnewest deletionAtTwenty _ _ ⟨⟨_, List.mem_cons_self⟩, ?_⟩
    deletionAtTwenty_dated⟩
  intro d hd
  rw [deletionAtTwenty_dated.place_eq]
  rcases List.mem_cons.mp hd with rfl | hd
  · rw [deletionAtTwenty_dated.place_eq]
  · obtain rfl := List.mem_singleton.mp hd
    rw [updateAtTen_dated.place_eq]
    decide

end StapelBilling
