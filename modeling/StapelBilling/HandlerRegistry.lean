import StapelBilling.ProviderObjects

/-! # The handler registry

The effective registry is the library's table with the host's entries over it, and it is resolved
whole whenever an event is dispatched.  An entry that cannot be resolved therefore fails events
of every type.  The check at start-up looks at the host's entries only, one by one.

* `WebhookSettings.lookup_rawHandlers`: the host's entry of a type wins.
* `WebhookSettings.resolves_iff`: the registry is resolved exactly when each host entry is.
* `WebhookSettings.ownHandlers_of_entries`: a host that only re-routes and switches off runs the
  library's own handlers.
* `boot_check_agrees`: the check at start-up says whether dispatching can fail.
-/
namespace StapelBilling
open Store
namespace WebhookSettings

/-! ## Entries over entries -/

section Entries
variable {β : Type} {key k : String} {value : β} {entries : List (String × β)} {entry : String × β}

theorem lookup_cons (entry : String × β) (rest : List (String × β)) (k : String) :
    (entry :: rest).lookup k = if k = entry.1 then some entry.2 else rest.lookup k := by
  rw [List.lookup_cons]
  by_cases hk : k = entry.1
  · rw [beq_iff_eq.mpr hk, if_pos hk]
  · rw [beq_eq_false_iff_ne.mpr hk, if_neg hk]

theorem lookup_setEntry (key : String) (value : β) (entries : List (String × β)) (k : String) :
    (setEntry key value entries).lookup k = if k = key then some value else entries.lookup k := by
  induction entries with
  | nil => exact lookup_cons _ _ _
  | cons entry rest ih =>
    unfold setEntry
    by_cases hkey : entry.1 = key
    · rw [if_pos hkey, lookup_cons, lookup_cons, hkey]
      by_cases hk : k = key
      · simp [hk]
      · simp [hk]
    · rw [if_neg hkey, lookup_cons, lookup_cons, ih]
      by_cases hk : k = entry.1
      · simp [hk, hkey]
      · simp [hk]

theorem mem_setEntry (h : entry ∈ setEntry key value entries) :
    entry = (key, value) ∨ entry ∈ entries := by
  induction entries with
  | nil => exact Or.inl (List.mem_singleton.mp h)
  | cons first rest ih =>
    unfold setEntry at h
    split at h
    · rcases List.mem_cons.mp h with rfl | h
      · exact Or.inl rfl
      · exact Or.inr (List.mem_cons_of_mem _ h)
    · rcases List.mem_cons.mp h with rfl | h
      · exact Or.inr List.mem_cons_self
      · exact (ih h).imp_right (List.mem_cons_of_mem _)

/-- The last entry of a key wins; of keys that are all different, the only one. -/
theorem lookup_foldl_setEntry (host : List (String × β)) (hnodup : (host.map Prod.fst).Nodup)
    (entries : List (String × β)) (k : String) :
    (host.foldl (fun raw entry => setEntry entry.1 entry.2 raw) entries).lookup k =
      (host.lookup k).or (entries.lookup k) := by
  induction host generalizing entries with
  | nil => rfl
  | cons entry rest ih =>
    obtain ⟨hfresh, hnodup⟩ := List.nodup_cons.mp hnodup
    rw [List.foldl_cons, ih hnodup, lookup_setEntry, lookup_cons]
    by_cases hk : k = entry.1
    · have hnone : rest.lookup k = none := by
        refine List.lookup_eq_none_iff.mpr fun other hother => ?_
        rw [hk, bne_iff_ne]
        exact fun he => hfresh (he ▸ List.mem_map_of_mem hother)
      simp [hk ▸ hnone, hk]
    · simp [hk]

theorem mem_foldl_setEntry {host : List (String × β)}
    (h : entry ∈ host.foldl (fun raw entry => setEntry entry.1 entry.2 raw) entries) :
    entry ∈ host ∨ entry ∈ entries := by
  induction host generalizing entries with
  | nil => exact Or.inr h
  | cons first rest ih =>
    rcases ih h with hrest | hset
    · exact Or.inl (List.mem_cons_of_mem _ hrest)
    · rcases mem_setEntry hset with rfl | hold
      · exact Or.inl List.mem_cons_self
      · exact Or.inr hold

end Entries

variable {hooks : WebhookSettings} {eventType : String}

/-- **The host's entry of a type wins over the library's.** -/
theorem lookup_rawHandlers (hooks : WebhookSettings) (eventType : String) :
    hooks.rawHandlers.lookup eventType = (hooks.stripeWebhookHandlers.lookup eventType).or
      ((builtinStripeHandlers.map fun entry => (entry.1, HandlerValue.path entry.2)).lookup
        eventType) :=
  lookup_foldl_setEntry _ hooks.nodup _ _

theorem mem_rawHandlers {entry : String × HandlerValue} (h : entry ∈ hooks.rawHandlers) :
    entry ∈ hooks.stripeWebhookHandlers ∨
      ∃ builtin ∈ builtinStripeHandlers, entry = (builtin.1, .path builtin.2) := by
  rcases mem_foldl_setEntry h with hhost | hbuiltin
  · exact Or.inl hhost
  · obtain ⟨builtin, hmem, rfl⟩ := List.mem_map.mp hbuiltin
    exact Or.inr ⟨builtin, hmem, rfl⟩

/-- An entry that the lookup finds is one of the table's. -/
theorem mem_of_lookup {β : Type} {entries : List (String × β)} {k : String} {value : β}
    (h : entries.lookup k = some value) : (k, value) ∈ entries := by
  obtain ⟨before, after, rfl, -⟩ := List.lookup_eq_some_iff.mp h
  simp

/-- The host's entries are all in the table. -/
theorem host_lookup {entry : String × HandlerValue} (h : entry ∈ hooks.stripeWebhookHandlers) :
    hooks.rawHandlers.lookup entry.1 = some entry.2 := by
  have hfound : hooks.stripeWebhookHandlers.lookup entry.1 = some entry.2 := by
    have hnodup := hooks.nodup
    generalize hooks.stripeWebhookHandlers = host at h hnodup ⊢
    induction host with
    | nil => cases h
    | cons first rest ih =>
      obtain ⟨hfresh, hnodup⟩ := List.nodup_cons.mp hnodup
      rw [lookup_cons]
      rcases List.mem_cons.mp h with rfl | h
      · simp
      · have hne : entry.1 ≠ first.1 := fun he => hfresh (he ▸ List.mem_map_of_mem h)
        simp [hne, ih h hnodup]
  rw [lookup_rawHandlers, hfound]
  rfl

/-! ## Resolving the table -/

/-- **The library's own entries are resolved**, to its own handlers. -/
theorem builtin_resolves (hooks : WebhookSettings) {builtin : String × String}
    (h : builtin ∈ builtinStripeHandlers) :
    ∃ handler ∈ servicesHandlers.map Prod.snd,
      hooks.resolve (.path builtin.2) = .ok (some (.handler handler)) := by
  have hfound : (servicesHandlers.lookup builtin.2).isSome :=
    (by decide +kernel : ∀ entry ∈ builtinStripeHandlers,
      (servicesHandlers.lookup entry.2).isSome) builtin h
  have hnamed : strip builtin.2 ≠ "" :=
    (by decide +kernel : ∀ entry ∈ builtinStripeHandlers, strip entry.2 ≠ "") builtin h
  obtain ⟨handler, hhandler⟩ := Option.isSome_iff_exists.mp hfound
  refine ⟨handler, List.mem_map_of_mem (mem_of_lookup hhandler), ?_⟩
  simp only [resolve, importString, if_neg hnamed, hhandler]

theorem resolveAll_ok {raw : List (String × HandlerValue)}
    {handlers : List (String × Option Imported)} (h : hooks.resolveAll raw = .ok handlers)
    (eventType : String) :
    (raw.lookup eventType = none ∧ handlers.lookup eventType = none) ∨
      ∃ value imported, raw.lookup eventType = some value ∧ hooks.resolve value = .ok imported ∧
        handlers.lookup eventType = some imported := by
  induction raw generalizing handlers with
  | nil =>
    obtain rfl := Except.ok.inj h
    exact Or.inl ⟨rfl, rfl⟩
  | cons entry rest ih =>
    unfold resolveAll at h
    split at h
    · cases h
    · rename_i imported himported
      split at h
      · cases h
      · rename_i resolved hresolved
        obtain rfl := Except.ok.inj h
        rw [lookup_cons, lookup_cons]
        by_cases hk : eventType = entry.1
        · rw [if_pos hk, if_pos hk]
          exact Or.inr ⟨entry.2, imported, rfl, himported, rfl⟩
        · rw [if_neg hk, if_neg hk]
          exact ih hresolved

/-- **A table is resolved exactly when each of its entries is.** -/
theorem exists_resolveAll_iff {raw : List (String × HandlerValue)} :
    (∃ handlers, hooks.resolveAll raw = .ok handlers) ↔
      ∀ entry ∈ raw, ∃ imported, hooks.resolve entry.2 = .ok imported := by
  induction raw with
  | nil => exact iff_of_true ⟨[], rfl⟩ fun _ h => by cases h
  | cons entry rest ih =>
    rw [List.forall_mem_cons, ← ih]
    cases hfirst : hooks.resolve entry.2 with
    | error e => simp [resolveAll, hfirst]
    | ok imported =>
      cases hrest : hooks.resolveAll rest with
      | error e => simp [resolveAll, hfirst, hrest]
      | ok resolved => simp [resolveAll, hfirst, hrest]

/-- **The registry is resolved exactly when each of the host's entries is.** -/
theorem resolves_iff (hooks : WebhookSettings) :
    (∃ handlers, hooks.stripeHandlers = .ok handlers) ↔
      ∀ entry ∈ hooks.stripeWebhookHandlers, ∃ imported, hooks.resolve entry.2 = .ok imported := by
  unfold stripeHandlers
  rw [exists_resolveAll_iff]
  constructor
  · exact fun h entry hentry => h entry (mem_of_lookup (host_lookup hentry))
  · intro h entry hentry
    rcases mem_rawHandlers hentry with hhost | ⟨builtin, hbuiltin, rfl⟩
    · exact h entry hhost
    · obtain ⟨handler, -, hresolve⟩ := hooks.builtin_resolves hbuiltin
      exact ⟨_, hresolve⟩

/-- What is dispatched for a type: the host's entry, else the library's. -/
theorem getStripeHandler_ok {target : Option Imported}
    (h : hooks.getStripeHandler eventType = .ok target) :
    (∃ value, hooks.stripeWebhookHandlers.lookup eventType = some value ∧
      hooks.resolve value = .ok target) ∨
    (hooks.stripeWebhookHandlers.lookup eventType = none ∧
      (target = none ∨ ∃ handler ∈ servicesHandlers.map Prod.snd, target = some (.handler handler))) := by
  unfold getStripeHandler at h
  split at h
  · cases h
  · rename_i handlers hhandlers
    obtain rfl := Except.ok.inj h
    rcases resolveAll_ok hhandlers eventType with ⟨hraw, hnone⟩ | ⟨value, imported, hraw, hvalue, hsome⟩
    · rw [lookup_rawHandlers, Option.or_eq_none_iff] at hraw
      rw [hnone]
      exact Or.inr ⟨hraw.1, Or.inl rfl⟩
    · rw [hsome, Option.getD_some]
      rw [lookup_rawHandlers] at hraw
      cases hhost : hooks.stripeWebhookHandlers.lookup eventType with
      | some own =>
        rw [hhost, Option.some_or] at hraw
        obtain rfl := Option.some.inj hraw
        exact Or.inl ⟨own, rfl, hvalue⟩
      | none =>
        rw [hhost, Option.none_or] at hraw
        obtain ⟨builtin, hbuiltin, he⟩ := List.mem_map.mp (mem_of_lookup hraw)
        obtain ⟨-, rfl⟩ := Prod.mk.inj he
        obtain ⟨handler, hown, hresolve⟩ := hooks.builtin_resolves hbuiltin
        refine Or.inr ⟨rfl, Or.inr ⟨handler, hown, ?_⟩⟩
        exact Except.ok.inj (hvalue.symm.trans hresolve)

/-- **A host that only re-routes events among the library's handlers and switches types off** runs
nothing else. -/
theorem ownHandlers_of_entries (h : ∀ entry ∈ hooks.stripeWebhookHandlers, entry.2 = .ignored ∨
    ∃ path, entry.2 = .path path ∧ (servicesHandlers.lookup path).isSome) : hooks.OwnHandlers := by
  intro eventType handler hget
  rcases getStripeHandler_ok hget with ⟨value, hlookup, hresolve⟩ | ⟨-, hnone | ⟨own, hown, he⟩⟩
  · rcases h _ (mem_of_lookup hlookup) with hignored | ⟨path, hpath, hfound⟩
    · have hignored : value = .ignored := hignored
      rw [hignored] at hresolve
      cases hresolve
    · have hpath : value = .path path := hpath
      obtain ⟨own, hown⟩ := Option.isSome_iff_exists.mp hfound
      rw [hpath] at hresolve
      simp only [resolve, importString, hown] at hresolve
      split at hresolve
      · cases hresolve
      · obtain rfl := Imported.handler.inj (Option.some.inj (Except.ok.inj hresolve))
        exact List.mem_map_of_mem (mem_of_lookup hown)
  · cases hnone
  · obtain rfl := Imported.handler.inj (Option.some.inj he)
    exact hown

end WebhookSettings

/-! ## The check at start-up -/

/-- **The check at start-up and the dispatch agree.**  The check reports nothing exactly when for
every event type there is a handler to call or nothing to do; and as soon as one entry cannot be
resolved, no event of any type is dispatched. -/
theorem boot_check_agrees (hooks : WebhookSettings) :
    (hooks.checkStripeWebhookHandlers = [] ↔ ∀ eventType, ∃ target,
      hooks.getStripeHandler eventType = .ok target ∧ target ≠ some .object) ∧
    ((∃ entry ∈ hooks.stripeWebhookHandlers, ∃ e, hooks.resolve entry.2 = .error e) →
      ∀ eventType env event db, ∃ e, hooks.dispatch env eventType event db = .error e) := by
  have hget : ∀ eventType handlers, hooks.stripeHandlers = .ok handlers →
      ∃ target, hooks.getStripeHandler eventType = .ok target := by
    intro eventType handlers hhandlers
    unfold WebhookSettings.getStripeHandler
    rw [hhandlers]
    exact ⟨_, rfl⟩
  refine ⟨?_, ?_⟩
  · -- the check says nothing of an entry that resolves to a callable
    have hcheck : hooks.checkStripeWebhookHandlers = [] ↔
        ∀ entry ∈ hooks.stripeWebhookHandlers, ∃ target, hooks.resolve entry.2 = .ok target ∧
          target ≠ some .object := by
      unfold WebhookSettings.checkStripeWebhookHandlers
      rw [List.filterMap_eq_nil_iff]
      refine forall₂_congr fun entry _ => ?_
      cases hooks.resolve entry.2 with
      | error e => simp
      | ok target =>
        cases target with
        | none => simp
        | some imported => cases imported <;> simp
    rw [hcheck]
    constructor
    · intro h eventType
      obtain ⟨handlers, hhandlers⟩ := hooks.resolves_iff.mpr
        fun entry hentry => (h entry hentry).imp fun _ ht => ht.1
      obtain ⟨target, htarget⟩ := hget eventType handlers hhandlers
      refine ⟨target, htarget, ?_⟩
      rcases WebhookSettings.getStripeHandler_ok htarget with
        ⟨value, hlookup, hresolve⟩ | ⟨-, rfl | ⟨handler, -, rfl⟩⟩
      · obtain ⟨target', hresolve', hne⟩ := h _ (WebhookSettings.mem_of_lookup hlookup)
        obtain rfl := Except.ok.inj (hresolve.symm.trans hresolve')
        exact hne
      · exact nofun
      · exact nofun
    · intro h entry hentry
      obtain ⟨target, htarget, hne⟩ := h entry.1
      refine ⟨target, ?_, hne⟩
      unfold WebhookSettings.getStripeHandler at htarget
      split at htarget
      · cases htarget
      · rename_i handlers hhandlers
        obtain rfl := Except.ok.inj htarget
        rcases WebhookSettings.resolveAll_ok hhandlers entry.1 with
          ⟨hraw, -⟩ | ⟨value, imported, hraw, hvalue, hsome⟩
        · rw [WebhookSettings.host_lookup hentry] at hraw
          cases hraw
        · rw [WebhookSettings.host_lookup hentry] at hraw
          rw [Option.some.inj hraw, hsome]
          exact hvalue
  · rintro ⟨entry, hentry, e, he⟩ eventType env event db
    -- the registry is built whole, so one path that fails fails every lookup
    have hfails : ∃ e, hooks.getStripeHandler eventType = .error e := by
      unfold WebhookSettings.getStripeHandler
      cases hhandlers : hooks.stripeHandlers with
      | error e => exact ⟨e, rfl⟩
      | ok handlers =>
        obtain ⟨imported, himported⟩ := hooks.resolves_iff.mp ⟨handlers, hhandlers⟩ entry hentry
        rw [he] at himported
        cases himported
    obtain ⟨e, hfails⟩ := hfails
    refine ⟨e, ?_⟩
    unfold WebhookSettings.dispatch
    rw [hfails]

end StapelBilling
