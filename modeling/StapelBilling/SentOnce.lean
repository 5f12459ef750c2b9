import StapelBilling.Notifications
import StapelBilling.Marks
import StapelBilling.Store.Claims

/-! # Letters, sent once

The bus delivers a payment fact at least once, to any number of workers at the same time.
Each delivery goes through three steps, and between any two of them the others may take
theirs:

1. the letter is made out and claimed; a claim that stands already ends the delivery;
2. the letter is published, and the bus accepts or refuses it: that `request_notification`
   answers and never raises is assumed of it here;
3. after a refusal the claim is given back, by its value, and the delivery raises.

A **mailroom** holds the database, the stage of every delivery and the letters the bus
accepted.  Read as claims on `(scope, external id)` it takes the steps of `Store.Claims`,
which is where the counting is done.
-/
namespace StapelBilling
open Store

/-! ## The mailroom -/

/-- A payment fact, as a worker is handed it. -/
inductive Notice
  | paymentCompleted (payload : PaymentCompletedPayload)
  | paymentFailed (payload : PaymentFailedPayload)

/-- The letter a fact asks for. -/
def Notice.letter (env : Env) : Notice → Option Letter
  | paymentCompleted payload => paymentCompletedLetter env payload
  | paymentFailed payload => paymentFailedLetter env payload

/-- How far a delivery has come. -/
inductive Stage
  | delivered
  | claimed (letter : Letter)
  | refused (letter : Letter)
  | returned (sent : Bool)
  | raised (e : BillingError)

/-- The database, the deliveries, and the letters that were accepted with their facts. -/
structure Mailroom where
  db : Db
  stage : ℕ → Stage := fun _ => .delivered
  accepted : List (Notice × Letter) := []

/-- One delivery takes its next step; `env` is what it reads, `accepts` what the bus
answers. -/
structure Turn where
  delivery : ℕ
  env : Env
  accepts : Bool

namespace Mailroom

/-- The next step of a delivery. -/
def step (notices : ℕ → Notice) (turn : Turn) (room : Mailroom) : Mailroom :=
  let next (stage : Stage) : ℕ → Stage := Function.update room.stage turn.delivery stage
  match room.stage turn.delivery with
  | .delivered =>
    match (notices turn.delivery).letter turn.env with
    | none => { room with stage := next (.returned false) }
    | some letter =>
      match claimProviderObject letter.scope (some letter.externalId) "notify" room.db with
      | none => { room with stage := next (.returned false) }
      | some db =>
        { room with
          db
          stage := next (.claimed letter) }
  | .claimed letter =>
    if turn.accepts then
      { room with
        stage := next (.returned true)
        accepted := room.accepted ++ [(notices turn.delivery, letter)] }
    else { room with stage := next (.refused letter) }
  | .refused letter =>
    { room with
      db := releaseClaim letter room.db
      stage := next (.raised (.notificationNotQueued letter.type letter.externalId)) }
  | .returned _ | .raised _ => room

/-- Deliveries taking turns. -/
def run (notices : ℕ → Notice) (turns : List Turn) (room : Mailroom) : Mailroom :=
  turns.foldl (fun room turn => room.step notices turn) room

/-- No delivery is between its claim and its end. -/
def Finished (room : Mailroom) : Prop :=
  ∀ i letter, room.stage i ≠ .claimed letter ∧ room.stage i ≠ .refused letter

end Mailroom

/-- How a delivery ends. -/
def Stage.ofResult : Except BillingError Bool → Stage
  | .ok sent => .returned sent
  | .error e => .raised e

/-- **A delivery that nobody interrupts** does what `claimAndSend` does. -/
theorem Mailroom.run_alone {notices : ℕ → Notice} {turn : Turn} {room : Mailroom} {letter : Letter}
    (hstage : room.stage turn.delivery = .delivered)
    (hletter : (notices turn.delivery).letter turn.env = some letter) :
    (room.run notices [turn, turn, turn]).db = (claimAndSend turn.accepts letter room.db).2 ∧
      (room.run notices [turn, turn, turn]).stage turn.delivery =
        Stage.ofResult (claimAndSend turn.accepts letter room.db).1 := by
  simp only [run, List.foldl_cons, List.foldl_nil]
  cases hclaim : claimProviderObject letter.scope (some letter.externalId) "notify" room.db with
  | none => simp [step, hstage, hletter, hclaim, claimAndSend, Stage.ofResult]
  | some db =>
    cases haccepts : turn.accepts with
    | true => simp [step, hstage, hletter, hclaim, haccepts, claimAndSend, Stage.ofResult]
    | false => simp [step, hstage, hletter, hclaim, haccepts, claimAndSend, Stage.ofResult]

/-- Is there a claim for a letter? -/
def Db.Notified (db : Db) (scope : GrantScope) (externalId : String) : Prop :=
  ∃ k grant, db.providerGrants.get? k = some grant ∧ grant.provider = "notify" ∧
    grant.scope = scope ∧ grant.externalId = externalId

/-! ## A mailroom as claims -/

/-- What a letter is claimed by. -/
abbrev LetterKey := GrantScope × String

/-- The claim of a letter. -/
def Letter.key (letter : Letter) : LetterKey := (letter.scope, letter.externalId)

/-- Where a delivery stands with its claim. -/
def Stage.claimant : Stage → Claimant LetterKey
  | delivered => .idle
  | claimed letter => .holding letter.key
  | refused letter => .refused letter.key
  | returned _ => .done
  | raised _ => .done

/-- A mailroom, read as claims; `before` are the letters claimed before it opened. -/
def Mailroom.claims (before : List LetterKey) (room : Mailroom) : Claims ℕ LetterKey where
  taken := fun key => room.db.Notified key.1 key.2
  party := fun i => (room.stage i).claimant
  accepted := before ++ room.accepted.map fun a => a.2.key

section Writes
variable {db db' : Db} {scope : GrantScope} {externalId : String} {letter : Letter}

theorem not_notified_of_claim {ext : Option String}
    (h : claimProviderObject letter.scope ext "notify" db = some db')
    (hext : ext = some letter.externalId) : ¬ db.Notified letter.scope letter.externalId := by
  obtain ⟨e, he, -, hfree, -⟩ := claimProviderObject_some h
  obtain rfl := Option.some.inj (he.symm.trans hext)
  rintro ⟨k, grant, hk, hgrant⟩
  exact hfree k grant hk hgrant

/-- A claim adds itself. -/
theorem notified_claim_iff (h : claimProviderObject letter.scope (some letter.externalId) "notify" db
    = some db') : db'.Notified scope externalId ↔
      db.Notified scope externalId ∨ (scope, externalId) = letter.key := by
  obtain ⟨e, he, -, -, rfl⟩ := claimProviderObject_some h
  obtain rfl := Option.some.inj he
  unfold Db.Notified Letter.key
  dsimp only
  constructor
  · rintro ⟨k, grant, hk, hprovider, rfl, rfl⟩
    rw [Table.get?_insert] at hk
    split at hk
    · exact Or.inr (by rw [← Option.some.inj hk])
    · exact Or.inl ⟨k, grant, hk, hprovider, rfl, rfl⟩
  · rintro (⟨k, grant, hk, hgrant⟩ | heq)
    · exact ⟨k, grant, Table.get?_insert_of_some _ hk, hgrant⟩
    · obtain ⟨rfl, rfl⟩ := Prod.mk.inj heq
      exact ⟨_, _, Table.get?_insert_next _ _, rfl, rfl, rfl⟩

/-- A claim given back is gone, and no other is. -/
theorem notified_release_iff : (releaseClaim letter db).Notified scope externalId ↔
    db.Notified scope externalId ∧ (scope, externalId) ≠ letter.key := by
  unfold Db.Notified Letter.key releaseClaim
  simp only [Table.get?_filter, Option.filter_eq_some_iff]
  constructor
  · rintro ⟨k, grant, ⟨hk, hkept⟩, hprovider, rfl, rfl⟩
    refine ⟨⟨k, grant, hk, hprovider, rfl, rfl⟩, fun heq => ?_⟩
    obtain ⟨hscope, hid⟩ := Prod.mk.inj heq
    simp [hprovider, hscope, hid] at hkept
  · rintro ⟨⟨k, grant, hk, hprovider, rfl, rfl⟩, hne⟩
    refine ⟨k, grant, ⟨hk, ?_⟩, hprovider, rfl, rfl⟩
    rw [decide_eq_true_iff]
    rintro ⟨-, hscope, hid⟩
    exact hne (Prod.ext hscope hid)

end Writes

/-- The letters a database has claims for. -/
def Db.notifiedKeys (db : Db) : List LetterKey :=
  ((db.providerGrants.select fun grant => grant.provider = "notify").map fun r =>
    (r.2.scope, r.2.externalId)).dedup

theorem Db.mem_notifiedKeys {db : Db} {key : LetterKey} :
    key ∈ db.notifiedKeys ↔ db.Notified key.1 key.2 := by
  rw [Db.notifiedKeys, List.mem_dedup, List.mem_map]
  constructor
  · rintro ⟨r, hr, rfl⟩
    obtain ⟨hk, hprovider⟩ := Table.mem_select.mp hr
    exact ⟨r.1, r.2, hk, hprovider, rfl, rfl⟩
  · rintro ⟨k, grant, hk, hprovider, hscope, hid⟩
    exact ⟨(k, grant), Table.mem_select.mpr ⟨hk, hprovider⟩, Prod.ext hscope hid⟩

namespace Mailroom
variable {notices : ℕ → Notice} {room : Mailroom} {before : List LetterKey}

theorem claimant_update (i : ℕ) (stage : Stage) (j : ℕ) :
    (Function.update room.stage i stage j).claimant =
      Function.update (room.claims before).party i stage.claimant j := by
  by_cases hj : j = i
  · rw [hj, Function.update_self, Function.update_self]
  · rw [Function.update_of_ne hj, Function.update_of_ne hj]
    rfl

/-- A mailroom that reads as where a step leads was led there. -/
theorem step_of_reads {room' : Mailroom} {claims : Claims ℕ LetterKey}
    (hstep : (room.claims before).Step claims)
    (htaken : ∀ key, room'.db.Notified key.1 key.2 ↔ claims.taken key)
    (hparty : ∀ i, (room'.stage i).claimant = claims.party i)
    (haccepted : before ++ (room'.accepted.map fun a => a.2.key) = claims.accepted) :
    (room.claims before).Step (room'.claims before) := by
  have heq : room'.claims before = claims := by
    cases claims with
    | mk taken party accepted =>
      simp only [Mailroom.claims, Claims.mk.injEq]
      exact ⟨funext fun key => propext (htaken key), funext hparty, haccepted⟩
  rw [heq]
  exact hstep

/-- **A turn is a step of the claims**, or none at all. -/
theorem step_claims (notices : ℕ → Notice) (turn : Turn) (room : Mailroom)
    (before : List LetterKey) : (room.claims before).Step ((room.step notices turn).claims before) ∨
      room.step notices turn = room := by
  have hparty : ∀ {stage}, room.stage turn.delivery = stage →
      (room.claims before).party turn.delivery = stage.claimant := fun h =>
    congrArg Stage.claimant h
  cases hstage : room.stage turn.delivery with
  | delivered =>
    have hleave : (room.claims before).Step (Mailroom.claims before { room with
        stage := Function.update room.stage turn.delivery (.returned false) }) :=
      step_of_reads (.leave turn.delivery (hparty hstage)) (fun _ => Iff.rfl)
        (claimant_update turn.delivery (.returned false)) rfl
    cases hletter : (notices turn.delivery).letter turn.env with
    | none =>
      simp only [step, hstage, hletter]
      exact Or.inl hleave
    | some letter =>
      cases hclaim : claimProviderObject letter.scope (some letter.externalId) "notify" room.db with
      | none =>
        simp only [step, hstage, hletter, hclaim]
        exact Or.inl hleave
      | some db =>
        simp only [step, hstage, hletter, hclaim]
        refine Or.inl (step_of_reads (.take turn.delivery letter.key (hparty hstage)
          (not_notified_of_claim hclaim rfl)) (fun key => notified_claim_iff hclaim)
          (claimant_update turn.delivery (.claimed letter)) rfl)
  | claimed letter =>
    by_cases haccepts : turn.accepts
    · simp only [step, hstage, if_pos haccepts]
      refine Or.inl (step_of_reads (.accept turn.delivery letter.key (hparty hstage))
        (fun _ => Iff.rfl) (claimant_update turn.delivery (.returned true)) ?_)
      rw [List.map_append, ← List.append_assoc]
      rfl
    · simp only [step, hstage, if_neg haccepts]
      exact Or.inl (step_of_reads (.refuse turn.delivery letter.key (hparty hstage))
        (fun _ => Iff.rfl) (claimant_update turn.delivery (.refused letter)) rfl)
  | refused letter =>
    simp only [step, hstage]
    exact Or.inl (step_of_reads (.release turn.delivery letter.key (hparty hstage))
      (fun key => notified_release_iff) (claimant_update turn.delivery _) rfl)
  | returned sent =>
    simp only [step, hstage, or_true]
  | raised e =>
    simp only [step, hstage, or_true]

theorem run_claims (notices : ℕ → Notice) (turns : List Turn) (room : Mailroom)
    (before : List LetterKey) :
    Relation.ReflTransGen Claims.Step (room.claims before) ((room.run notices turns).claims before) := by
  induction turns generalizing room with
  | nil => exact .refl
  | cons turn turns ih =>
    rcases step_claims notices turn room before with hstep | hstill
    · exact .head hstep (ih _)
    · have hrest := ih (room.step notices turn)
      rw [hstill] at hrest
      rw [run, List.foldl_cons, hstill]
      exact hrest

/-- **A mailroom that has just opened is sound.** -/
theorem claims_sound (db : Db) : (claims db.notifiedKeys { db }).Sound where
  taken := fun key => by
    simp only [claims, List.map_nil, List.append_nil, Db.mem_notifiedKeys, Stage.claimant,
      Claimant.not_worksOn_idle, exists_false, false_or]
  alone := fun i j key hi => absurd hi Claimant.not_worksOn_idle
  fresh := fun i key hi => absurd hi Claimant.not_worksOn_idle
  nodup := by
    rw [claims, List.map_nil, List.append_nil]
    exact List.nodup_dedup _

/-! ## The letters of a run -/

/-- The letters in a mailroom were made out by the facts they are about. -/
structure MadeOut (notices : ℕ → Notice) (room : Mailroom) : Prop where
  inHand : ∀ i letter, room.stage i = .claimed letter →
    ∃ env, (notices i).letter env = some letter
  accepted : ∀ a ∈ room.accepted, ∃ env, a.1.letter env = some a.2

theorem MadeOut.opened (notices : ℕ → Notice) (db : Db) : MadeOut notices { db } where
  inHand := fun _ _ hi => Stage.noConfusion hi
  accepted := fun _ ha => absurd ha List.not_mem_nil

theorem MadeOut.step (h : room.MadeOut notices) (turn : Turn) :
    (room.step notices turn).MadeOut notices := by
  -- Only a claim brings a letter into a stage.
  have hmoved : ∀ stage : Stage, (∀ letter, stage = .claimed letter →
      ∃ env, (notices turn.delivery).letter env = some letter) → ∀ i letter,
      Function.update room.stage turn.delivery stage i = .claimed letter →
        ∃ env, (notices i).letter env = some letter := by
    intro stage hstage i letter hi
    by_cases hturn : i = turn.delivery
    · rw [hturn, Function.update_self] at hi
      rw [hturn]
      exact hstage letter hi
    · rw [Function.update_of_ne hturn] at hi
      exact h.inHand i letter hi
  have hends : ∀ stage : Stage, (∀ letter, stage ≠ .claimed letter) → ∀ i letter,
      Function.update room.stage turn.delivery stage i = .claimed letter →
        ∃ env, (notices i).letter env = some letter :=
    fun stage hend => hmoved stage fun letter hletter => absurd hletter (hend letter)
  cases hstage : room.stage turn.delivery with
  | delivered =>
    cases hletter : (notices turn.delivery).letter turn.env with
    | none =>
      simp only [Mailroom.step, hstage, hletter]
      exact ⟨hends _ fun _ => Stage.noConfusion, h.accepted⟩
    | some letter =>
      cases hclaim : claimProviderObject letter.scope (some letter.externalId) "notify" room.db with
      | none =>
        simp only [Mailroom.step, hstage, hletter, hclaim]
        exact ⟨hends _ fun _ => Stage.noConfusion, h.accepted⟩
      | some db =>
        simp only [Mailroom.step, hstage, hletter, hclaim]
        refine ⟨hmoved _ fun other hother => ⟨turn.env, ?_⟩, h.accepted⟩
        rw [hletter, Stage.claimed.inj hother]
  | claimed letter =>
    by_cases haccepts : turn.accepts
    · simp only [Mailroom.step, hstage, if_pos haccepts]
      refine ⟨hends _ fun _ => Stage.noConfusion, fun a ha => ?_⟩
      rcases List.mem_append.mp ha with ha | ha
      · exact h.accepted a ha
      · rw [List.mem_singleton.mp ha]
        exact h.inHand turn.delivery letter hstage
    · simp only [Mailroom.step, hstage, if_neg haccepts]
      exact ⟨hends _ fun _ => Stage.noConfusion, h.accepted⟩
  | refused letter =>
    simp only [Mailroom.step, hstage]
    exact ⟨hends _ fun _ => Stage.noConfusion, h.accepted⟩
  | returned sent =>
    simp only [Mailroom.step, hstage]
    exact h
  | raised e =>
    simp only [Mailroom.step, hstage]
    exact h

theorem MadeOut.run (h : room.MadeOut notices) (turns : List Turn) :
    (room.run notices turns).MadeOut notices := by
  induction turns generalizing room with
  | nil => exact h
  | cons turn turns ih => exact ih (h.step turn)

end Mailroom

/-! ## The letters of a fact -/

/-- The ledger row a fact is about. -/
def Notice.transactionId : Notice → Option String
  | paymentCompleted payload => nonempty payload.transactionId
  | paymentFailed _ => none

/-- The invoice a fact is about. -/
def Notice.invoiceId : Notice → Option String
  | paymentCompleted _ => none
  | paymentFailed payload => nonempty payload.invoiceId

/-- **A receipt is claimed under its ledger row.** -/
theorem Notice.letter_transactionId {notice : Notice} {env : Env} {letter : Letter} {id : String}
    (h : notice.letter env = some letter) (hid : notice.transactionId = some id) :
    letter.key = (.notifyPayment, id) := by
  cases notice with
  | paymentFailed payload => cases hid
  | paymentCompleted payload =>
    have hid : nonempty payload.transactionId = some id := hid
    simp only [Notice.letter, paymentCompletedLetter, hid] at h
    split at h
    · rename_i userId transactionId huser htransaction
      split at h
      · cases h
      · obtain ⟨vars, -, rfl⟩ := Option.map_eq_some_iff.mp h
        rw [Letter.key, Option.some.inj htransaction]
    · cases h

theorem paymentFailedVariables_finalAttempt {env : Env} {payload : PaymentFailedPayload}
    {vars : LetterVariables} (h : paymentFailedVariables env payload = some vars) :
    vars.finalAttempt = decide (payload.finalAttempt = .bool true) := by
  unfold paymentFailedVariables at h
  split at h
  · cases h
  · obtain rfl := Option.some.inj h
    rfl

/-- **The notices of an invoice** are claimed under the invoice or as its last one; what says
that it is the last one is claimed so. -/
theorem Notice.letter_invoiceId {notice : Notice} {env : Env} {letter : Letter} {id : String}
    (h : notice.letter env = some letter) (hid : notice.invoiceId = some id) :
    letter.key ∈ [(GrantScope.notifyPaymentFailed, id), (.notifyPaymentFailed, s!"{id}:final")] ∧
      (letter.vars.finalAttempt = true →
        letter.key ∈ [(GrantScope.notifyPaymentFailed, s!"{id}:final")]) := by
  cases notice with
  | paymentCompleted payload => cases hid
  | paymentFailed payload =>
    have hid : nonempty payload.invoiceId = some id := hid
    simp only [Notice.letter, paymentFailedLetter, hid, Option.some_or, Option.isSome_some,
      and_true] at h
    split at h
    · rename_i userId externalId huser hexternal
      obtain rfl := Option.some.inj hexternal
      split at h
      · cases h
      · obtain ⟨vars, hvars, rfl⟩ := Option.map_eq_some_iff.mp h
        simp only [Letter.key]
        by_cases hfinal : payload.finalAttempt.truthy = true
        · simp only [if_pos hfinal, List.mem_cons, true_or, or_true, implies_true, and_self]
        · -- Words of a last attempt need the flag itself, which counts as true.
          have hplain : vars.finalAttempt ≠ true := by
            intro hsaid
            have hflag := paymentFailedVariables_finalAttempt hvars
            rw [hsaid] at hflag
            rw [of_decide_eq_true hflag.symm] at hfinal
            exact hfinal rfl
          simp only [if_neg hfinal, List.mem_cons, true_or, true_and]
          exact fun h => absurd h hplain
    · cases h

/-- **Letters are sent at most once, and never recorded without being sent.**  In every
interleaving of deliveries, and however the bus answers: one receipt for a ledger row, two
notices for an invoice and one of them with the words of the last attempt; and once all
deliveries have finished, the claims are those of before and those of accepted letters. -/
theorem letters_sent_once (notices : ℕ → Notice) (turns : List Turn) (db : Db) :
    (∀ transactionId, ((Mailroom.run notices turns { db }).accepted.filter fun a =>
      a.1.transactionId = some transactionId).length ≤ 1) ∧
    (∀ invoiceId, ((Mailroom.run notices turns { db }).accepted.filter fun a =>
      a.1.invoiceId = some invoiceId).length ≤ 2) ∧
    (∀ invoiceId, ((Mailroom.run notices turns { db }).accepted.filter fun a =>
      a.1.invoiceId = some invoiceId ∧ a.2.vars.finalAttempt = true).length ≤ 1) ∧
    ((Mailroom.run notices turns { db }).Finished → ∀ scope externalId,
      ((Mailroom.run notices turns { db }).db.Notified scope externalId ↔
        db.Notified scope externalId ∨ ∃ a ∈ (Mailroom.run notices turns { db }).accepted,
          a.2.scope = scope ∧ a.2.externalId = externalId)) := by
  have hsound := (Mailroom.claims_sound db).run
    (Mailroom.run_claims notices turns { db } db.notifiedKeys)
  have hmade : (Mailroom.run notices turns { db }).MadeOut notices :=
    Mailroom.MadeOut.run (.opened notices db) turns
  generalize Mailroom.run notices turns { db } = room at hsound hmade ⊢
  have hnodup : (room.accepted.map fun a => a.2.key).Nodup :=
    (List.nodup_append.mp hsound.nodup).2.1
  refine ⟨fun id => ?_, fun id => ?_, fun id => ?_, fun hfinished scope externalId => ?_⟩
  · refine @length_filter_le_of_nodup LetterKey _ _ _ hnodup _ [(.notifyPayment, id)]
      fun a ha hid => ?_
    obtain ⟨env, hletter⟩ := hmade.accepted a ha
    rw [List.mem_singleton]
    exact Notice.letter_transactionId hletter (of_decide_eq_true hid)
  · refine @length_filter_le_of_nodup LetterKey _ _ _ hnodup _ [(.notifyPaymentFailed, id),
      (.notifyPaymentFailed, s!"{id}:final")] fun a ha hid => ?_
    obtain ⟨env, hletter⟩ := hmade.accepted a ha
    exact (Notice.letter_invoiceId hletter (of_decide_eq_true hid)).1
  · refine @length_filter_le_of_nodup LetterKey _ _ _ hnodup _
      [(.notifyPaymentFailed, s!"{id}:final")] fun a ha hid => ?_
    obtain ⟨env, hletter⟩ := hmade.accepted a ha
    obtain ⟨hinvoice, hfinal⟩ := of_decide_eq_true hid
    exact (Notice.letter_invoiceId hletter hinvoice).2 hfinal
  · have hsettled : (room.claims db.notifiedKeys).Settled := by
      intro i key hat
      have hat : (room.stage i).claimant.WorksOn key := hat
      cases hstage : room.stage i with
      | claimed letter => exact (hfinished i letter).1 hstage
      | refused letter => exact (hfinished i letter).2 hstage
      | delivered | returned sent | raised e => simp [hstage, Stage.claimant] at hat
    refine (hsound.taken_iff hsettled (scope, externalId)).trans ?_
    rw [Mailroom.claims, List.mem_append, Db.mem_notifiedKeys, List.mem_map]
    refine or_congr_right (exists_congr fun a => and_congr_right fun _ => ?_)
    exact Prod.mk.injEq _ _ _ _ ▸ Iff.rfl

end StapelBilling
