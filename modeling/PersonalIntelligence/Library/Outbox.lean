import Mathlib.Data.List.Count
import Mathlib.Data.List.Nodup

/-!
# Facts and their publications

A service records a fact and publishes it, in two steps.  The facts on record are one list
and what has been published is another, and the two agree if every fact has been published
exactly once (`Exact`).

As long as no fact is recorded twice and nothing is published that is not on record
(`Sound`), a fact can only be published by the step that records it.  So a step that
publishes all of its facts keeps the agreement, and a step that leaves one out destroys it
for good (`Missing`).
-/

namespace Outbox

variable {α : Type} [DecidableEq α] {facts published new sent : List α}

/-- Every fact has been published exactly once. -/
def Exact (facts published : List α) : Prop := ∀ f ∈ facts, published.count f = 1

/-- A fact has not been published. -/
def Missing (facts published : List α) : Prop := ∃ f ∈ facts, f ∉ published

omit [DecidableEq α] in
/-- No fact is recorded twice, and nothing else is published. -/
structure Sound (facts published : List α) : Prop where
  nodup : facts.Nodup
  subset : published ⊆ facts

instance (facts published : List α) : Decidable (Exact facts published) :=
  inferInstanceAs (Decidable (∀ f ∈ facts, _))

/-- The publications of a fact, counted among the messages that carry them. -/
theorem exact_map_iff {β : Type} {f : β → α} {messages : List β} :
    Exact facts (messages.map f) ↔
      ∀ fact ∈ facts, messages.countP (fun message => f message = fact) = 1 := by
  refine forall₂_congr fun fact _ => ?_
  rw [List.count_eq_countP, List.countP_map]
  rfl

theorem exact_nil : Exact ([] : List α) published := fun f h => by cases h

theorem Missing.not_exact (h : Missing facts published) : ¬ Exact facts published := by
  obtain ⟨f, hf, hnone⟩ := h
  intro hexact
  have hcount := hexact f hf
  rw [List.count_eq_zero_of_not_mem hnone] at hcount
  cases hcount

section Step

omit [DecidableEq α] in
/-- New facts are recorded, and some of them are published. -/
theorem Sound.extend (h : Sound facts published) (hnodup : new.Nodup)
    (hnew : ∀ f ∈ new, f ∉ facts) (hsent : sent ⊆ new) :
    Sound (facts ++ new) (published ++ sent) where
  nodup := List.nodup_append'.mpr ⟨h.nodup, hnodup, fun f hold hf => hnew f hf hold⟩
  subset := by
    intro f hf
    rcases List.mem_append.mp hf with hold | hs
    · exact List.mem_append_left _ (h.subset hold)
    · exact List.mem_append_right _ (hsent hs)

/-- All of them are published. -/
theorem Exact.extend (h : Exact facts published) (hsound : Sound facts published)
    (hnodup : new.Nodup) (hnew : ∀ f ∈ new, f ∉ facts) :
    Exact (facts ++ new) (published ++ new) := by
  intro f hf
  rw [List.count_append]
  rcases List.mem_append.mp hf with hold | hf
  · have hzero : new.count f = 0 := List.count_eq_zero_of_not_mem fun hf => hnew f hf hold
    rw [h f hold, hzero]
  · have hzero : published.count f = 0 :=
      List.count_eq_zero_of_not_mem fun hmem => hnew f hf (hsound.subset hmem)
    rw [hzero, List.count_eq_one_of_mem hnodup hf]

omit [DecidableEq α] in
/-- One of them is left out. -/
theorem Sound.missing (h : Sound facts published) (hnew : ∀ f ∈ new, f ∉ facts) {f : α}
    (hf : f ∈ new) (hunsent : f ∉ sent) : Missing (facts ++ new) (published ++ sent) := by
  refine ⟨f, List.mem_append_right _ hf, fun hmem => ?_⟩
  rcases List.mem_append.mp hmem with hold | hs
  · exact hnew f hf (h.subset hold)
  · exact hunsent hs

omit [DecidableEq α] in
/-- What was left out before stays so. -/
theorem Missing.extend (h : Missing facts published) (hnew : ∀ f ∈ new, f ∉ facts)
    (hsent : sent ⊆ new) : Missing (facts ++ new) (published ++ sent) := by
  obtain ⟨f, hf, hnone⟩ := h
  refine ⟨f, List.mem_append_left _ hf, fun hmem => ?_⟩
  rcases List.mem_append.mp hmem with hold | hs
  · exact hnone hold
  · exact hnew f (hsent hs) hf

end Step

end Outbox
