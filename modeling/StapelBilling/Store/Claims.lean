import Mathlib

/-! # Claims

Parties that want something done once per key take a claim on the key, act, and give the
claim back where the act was refused.  The three are steps of their own, and the parties
take theirs in any order.

* `Claims.Step`: one step of one party.
* `Claims.Sound`: a key is claimed exactly while a party is at work on it or after the act
  was accepted, and never for two reasons at once.
* `Claims.Sound.accepted_nodup`, `Claims.Sound.taken_iff`: what a sound state says once
  nobody is at work any more.
-/
namespace Store
variable {ι Key : Type}

/-- Where a party stands. -/
inductive Claimant (Key : Type)
  | idle
  | holding (key : Key)
  | refused (key : Key)
  | done
  deriving DecidableEq

/-- Is a party at work on a key? -/
def Claimant.WorksOn (party : Claimant Key) (key : Key) : Prop :=
  party = .holding key ∨ party = .refused key

namespace Claimant
variable {k key : Key}

@[simp] theorem not_worksOn_idle : ¬ (idle : Claimant Key).WorksOn key := by simp [WorksOn]

@[simp] theorem not_worksOn_done : ¬ (done : Claimant Key).WorksOn key := by simp [WorksOn]

@[simp] theorem worksOn_holding : (holding k).WorksOn key ↔ k = key := by simp [WorksOn]

@[simp] theorem worksOn_refused : (refused k).WorksOn key ↔ k = key := by simp [WorksOn]

end Claimant

/-- The claims that stand, the parties, and the keys whose act was accepted, in order. -/
structure Claims (ι Key : Type) where
  taken : Key → Prop
  party : ι → Claimant Key
  accepted : List Key

namespace Claims

/-- **One step of one party.** -/
inductive Step [DecidableEq ι] (s : Claims ι Key) : Claims ι Key → Prop
  /-- The claim on a free key is taken. -/
  | take (i : ι) (key : Key) (hidle : s.party i = .idle) (hfree : ¬ s.taken key) :
      Step s { s with
        taken := fun k => s.taken k ∨ k = key
        party := Function.update s.party i (.holding key) }
  /-- The party has no use for a claim, or finds it taken. -/
  | leave (i : ι) (hidle : s.party i = .idle) :
      Step s { s with party := Function.update s.party i .done }
  | accept (i : ι) (key : Key) (hholding : s.party i = .holding key) :
      Step s { s with
        party := Function.update s.party i .done
        accepted := s.accepted ++ [key] }
  | refuse (i : ι) (key : Key) (hholding : s.party i = .holding key) :
      Step s { s with party := Function.update s.party i (.refused key) }
  /-- Every claim on the key is given back, whoever took it. -/
  | release (i : ι) (key : Key) (hrefused : s.party i = .refused key) :
      Step s { s with
        taken := fun k => s.taken k ∧ k ≠ key
        party := Function.update s.party i .done }

/-- **A key is claimed for one reason**: one party is at work on it, or its act was accepted. -/
structure Sound (s : Claims ι Key) : Prop where
  taken : ∀ key, s.taken key ↔ (∃ i, (s.party i).WorksOn key) ∨ key ∈ s.accepted
  alone : ∀ i j key, (s.party i).WorksOn key → (s.party j).WorksOn key → i = j
  fresh : ∀ i key, (s.party i).WorksOn key → key ∉ s.accepted
  nodup : s.accepted.Nodup

/-- Nobody is at work any more. -/
def Settled (s : Claims ι Key) : Prop := ∀ i key, ¬ (s.party i).WorksOn key

section Parties
variable [DecidableEq ι] {party : ι → Claimant Key} {i j : ι} {key : Key}

/-- A party that moves on leaves the others at their work. -/
theorem worksOn_update_iff {next : Claimant Key} :
    (Function.update party i next j).WorksOn key ↔
      if j = i then next.WorksOn key else (party j).WorksOn key := by
  by_cases hj : j = i
  · rw [if_pos hj, hj, Function.update_self]
  · rw [if_neg hj, Function.update_of_ne hj]

/-- A party that is done is at work on nothing. -/
theorem worksOn_done_iff :
    (Function.update party i .done j).WorksOn key ↔ j ≠ i ∧ (party j).WorksOn key := by
  rw [worksOn_update_iff]
  split
  · simp [*]
  · simp [*]

end Parties

section Steps
variable [DecidableEq ι] {s s' : Claims ι Key}

/-- A party that is done came to an end alone, and on an unaccepted key. -/
theorem Sound.worksOn_done (hs : s.Sound) {i : ι} :
    (∀ j j' key, (Function.update s.party i .done j).WorksOn key →
      (Function.update s.party i .done j').WorksOn key → j = j') ∧
    ∀ j key, (Function.update s.party i .done j).WorksOn key → key ∉ s.accepted :=
  ⟨fun j j' key hj hj' => hs.alone j j' key (worksOn_done_iff.mp hj).2 (worksOn_done_iff.mp hj').2,
    fun j key hj => hs.fresh j key (worksOn_done_iff.mp hj).2⟩

/-- **One step keeps claims sound.** -/
theorem Step.sound (h : s.Step s') (hs : s.Sound) : s'.Sound := by
  cases h with
  | take i key hidle hfree =>
    have hunclaimed := mt (hs.taken key).mpr hfree
    rw [not_or, not_exists] at hunclaimed
    refine ⟨fun k => ?_, fun j j' k hj hj' => ?_, fun j k hj => ?_, hs.nodup⟩
    · constructor
      · rintro (h | rfl)
        · rcases (hs.taken k).mp h with ⟨j, hj⟩ | h
          · refine Or.inl ⟨j, worksOn_update_iff.mpr ?_⟩
            rw [if_neg]
            · exact hj
            · rintro rfl
              simp [hidle] at hj
          · exact Or.inr h
        · exact Or.inl ⟨i, by simp⟩
      · rintro (⟨j, hj⟩ | h)
        · rw [worksOn_update_iff] at hj
          split at hj
          · exact Or.inr (Claimant.worksOn_holding.mp hj).symm
          · exact Or.inl ((hs.taken k).mpr (Or.inl ⟨j, hj⟩))
        · exact Or.inl ((hs.taken k).mpr (Or.inr h))
    · rw [worksOn_update_iff] at hj hj'
      split at hj <;> split at hj'
      · simp [*]
      · obtain rfl := Claimant.worksOn_holding.mp hj
        exact absurd hj' (hunclaimed.1 j')
      · obtain rfl := Claimant.worksOn_holding.mp hj'
        exact absurd hj (hunclaimed.1 j)
      · exact hs.alone j j' k hj hj'
    · rw [worksOn_update_iff] at hj
      split at hj
      · obtain rfl := Claimant.worksOn_holding.mp hj
        exact hunclaimed.2
      · exact hs.fresh j k hj
  | leave i hidle =>
    refine ⟨fun k => ?_, hs.worksOn_done.1, hs.worksOn_done.2, hs.nodup⟩
    rw [hs.taken]
    refine or_congr_left (exists_congr fun j => ?_)
    rw [worksOn_done_iff]
    refine ⟨fun hj => ⟨?_, hj⟩, fun hj => hj.2⟩
    rintro rfl
    simp [hidle] at hj
  | accept i key hholding =>
    have hworks : (s.party i).WorksOn key := by simp [hholding]
    refine ⟨fun k => ?_, hs.worksOn_done.1, fun j k hj => ?_, ?_⟩
    · rw [hs.taken, List.mem_append, List.mem_singleton]
      constructor
      · rintro (⟨j, hj⟩ | h)
        · by_cases hji : j = i
          · rw [hji, hholding, Claimant.worksOn_holding] at hj
            exact Or.inr (Or.inr hj.symm)
          · exact Or.inl ⟨j, worksOn_done_iff.mpr ⟨hji, hj⟩⟩
        · exact Or.inr (Or.inl h)
      · rintro (⟨j, hj⟩ | h | rfl)
        · exact Or.inl ⟨j, (worksOn_done_iff.mp hj).2⟩
        · exact Or.inr h
        · exact Or.inl ⟨i, hworks⟩
    · obtain ⟨hji, hat⟩ := worksOn_done_iff.mp hj
      rw [List.mem_append, List.mem_singleton, not_or]
      refine ⟨hs.fresh j k hat, ?_⟩
      rintro rfl
      exact hji (hs.alone j i k hat hworks)
    · refine List.nodup_append.mpr ⟨hs.nodup, List.nodup_singleton _, fun a ha b hb => ?_⟩
      rintro rfl
      rw [List.mem_singleton.mp hb] at ha
      exact hs.fresh i key hworks ha
  | refuse i key hholding =>
    -- The party is at work on what it was at work on.
    have hsame : ∀ j k, (Function.update s.party i (.refused key) j).WorksOn k ↔
        (s.party j).WorksOn k := by
      intro j k
      rw [worksOn_update_iff]
      split
      · rename_i hj
        simp [hj, hholding]
      · rfl
    refine ⟨fun k => ?_, fun j j' k hj hj' => ?_, fun j k hj => ?_, hs.nodup⟩
    · rw [hs.taken]
      exact or_congr_left (exists_congr fun j => (hsame j k).symm)
    · exact hs.alone j j' k ((hsame j k).mp hj) ((hsame j' k).mp hj')
    · exact hs.fresh j k ((hsame j k).mp hj)
  | release i key hrefused =>
    have hworks : (s.party i).WorksOn key := by simp [hrefused]
    refine ⟨fun k => ?_, hs.worksOn_done.1, hs.worksOn_done.2, hs.nodup⟩
    constructor
    · rintro ⟨htaken, hne⟩
      rcases (hs.taken k).mp htaken with ⟨j, hj⟩ | h
      · refine Or.inl ⟨j, worksOn_done_iff.mpr ⟨?_, hj⟩⟩
        rintro rfl
        rw [hrefused, Claimant.worksOn_refused] at hj
        exact hne hj.symm
      · exact Or.inr h
    · -- What still claims the key is another reason than the one given up.
      rintro (⟨j, hj⟩ | h)
      · obtain ⟨hji, hat⟩ := worksOn_done_iff.mp hj
        refine ⟨(hs.taken k).mpr (Or.inl ⟨j, hat⟩), ?_⟩
        rintro rfl
        exact hji (hs.alone j i k hat hworks)
      · refine ⟨(hs.taken k).mpr (Or.inr h), ?_⟩
        rintro rfl
        exact hs.fresh i k hworks h

/-- **Every run keeps claims sound.** -/
theorem Sound.run (hs : s.Sound) (h : Relation.ReflTransGen Step s s') : s'.Sound := by
  induction h with
  | refl => exact hs
  | tail _ hstep ih => exact hstep.sound ih

end Steps

/-- **Once nobody is at work**, the claims that stand are the acts that were accepted. -/
theorem Sound.taken_iff {s : Claims ι Key} (hs : s.Sound) (hsettled : s.Settled) (key : Key) :
    s.taken key ↔ key ∈ s.accepted := by
  rw [hs.taken]
  constructor
  · rintro (⟨i, hi⟩ | h)
    · exact absurd hi (hsettled i key)
    · exact h
  · exact Or.inr

end Claims

/-- Entries told apart by their keys are at most as many as the keys they may have. -/
theorem length_filter_le_of_nodup {α : Type} {entries : List α} {key : α → Key}
    (hnodup : (entries.map key).Nodup) {p : α → Bool} {keys : List Key}
    (hkeys : ∀ a ∈ entries, p a = true → key a ∈ keys) : (entries.filter p).length ≤ keys.length := by
  rw [← List.length_map key]
  refine List.Subperm.length_le (List.subperm_of_subset ?_ fun k hk => ?_)
  · exact hnodup.sublist (List.filter_sublist.map key)
  · obtain ⟨a, ha, rfl⟩ := List.mem_map.mp hk
    exact hkeys a (List.mem_filter.mp ha).1 (List.mem_filter.mp ha).2

end Store
