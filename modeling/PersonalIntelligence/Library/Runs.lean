import Mathlib.Data.List.Basic

/-!
# Properties of every state of a run

A run applies a step to a state for each entry of a list, and the states it passes are
those after the prefixes of the list.  A property holds of all of them exactly if a
condition holds at every step, provided that some invariant implies the property, is kept
by a step that meets the condition, and that a step after which the property holds has met
it.  If a step that does not meet the condition loses the property for good, then the last
state of a run tells whether all of its steps met the condition (`final_iff_meets`).
-/

namespace Runs

variable {σ δ : Type} {step : σ → δ → σ} {I P : σ → Prop} {C : σ → δ → Prop}
  {Run : σ → List δ → Prop}

/-- The prefixes of a list are the empty one and those that begin as it does. -/
theorem forall_prefix_cons {d : δ} {rest : List δ} {Q : List δ → Prop} :
    (∀ handled, handled <+: d :: rest → Q handled) ↔
      Q [] ∧ ∀ handled, handled <+: rest → Q (d :: handled) := by
  constructor
  · exact fun h => ⟨h [] List.nil_prefix,
      fun handled hprefix => h _ (List.cons_prefix_cons.mpr ⟨rfl, hprefix⟩)⟩
  · rintro ⟨hnil, hcons⟩ handled hprefix
    rcases List.prefix_cons_iff.mp hprefix with rfl | ⟨later, rfl, hlater⟩
    · exact hnil
    · exact hcons later hlater

/-- A run whose steps meet the condition passes the states of an invariant only. -/
theorem forall_prefix (hcons : ∀ s d rest, Run s (d :: rest) → C s d ∧ Run (step s d) rest)
    (hkeep : ∀ s d, I s → C s d → I (step s d)) (entries : List δ) {s : σ} (h : I s)
    (hrun : Run s entries) : ∀ handled, handled <+: entries → I (handled.foldl step s) := by
  induction entries generalizing s with
  | nil =>
    intro handled hprefix
    rw [List.prefix_nil.mp hprefix]
    exact h
  | cons d rest ih =>
    obtain ⟨hd, hrest⟩ := hcons s d rest hrun
    exact forall_prefix_cons.mpr ⟨h, ih (hkeep s d h hd) hrest⟩

/-- **The rule.**  `Run` is the condition at every step. -/
theorem forall_prefix_iff (hnil : ∀ s, Run s [])
    (hcons : ∀ s d rest, Run s (d :: rest) ↔ C s d ∧ Run (step s d) rest)
    (hproperty : ∀ s, I s → P s) (hkeep : ∀ s d, I s → C s d → I (step s d))
    (hneed : ∀ s d, I s → P (step s d) → C s d) (entries : List δ) {s : σ} (h : I s) :
    (∀ handled, handled <+: entries → P (handled.foldl step s)) ↔ Run s entries := by
  constructor
  · intro hall
    induction entries generalizing s with
    | nil => exact hnil s
    | cons d rest ih =>
      obtain ⟨-, hlater⟩ := forall_prefix_cons.mp hall
      have hd := hneed s d h (hlater [] List.nil_prefix)
      exact (hcons s d rest).mpr ⟨hd, ih (hkeep s d h hd) hlater⟩
  · intro hrun handled hprefix
    have hI := forall_prefix (fun s d rest => (hcons s d rest).mp) hkeep entries h hrun
    exact hproperty _ (hI handled hprefix)

/-! ## A condition at every step -/

/-- Every entry of the run meets the condition in the state it finds. -/
def Meets (step : σ → δ → σ) (C : σ → δ → Prop) : σ → List δ → Prop
  | _, [] => True
  | s, d :: rest => C s d ∧ Meets step C (step s d) rest

instance decidableMeets (step : σ → δ → σ) (C : σ → δ → Prop) [∀ s d, Decidable (C s d)] :
    ∀ (s : σ) (entries : List δ), Decidable (Meets step C s entries)
  | _, [] => inferInstanceAs (Decidable True)
  | s, d :: rest =>
    have := decidableMeets step C (step s d) rest
    inferInstanceAs (Decidable (_ ∧ _))

/-- What every step that meets the condition keeps, holds throughout the run. -/
theorem Meets.forall_prefix (hkeep : ∀ s d, I s → C s d → I (step s d)) {entries : List δ} {s : σ}
    (hmeets : Meets step C s entries) (h : I s) :
    ∀ handled, handled <+: entries → I (handled.foldl step s) :=
  Runs.forall_prefix (fun _ _ _ => id) hkeep entries h hmeets

/-- Two steps that agree where the condition is met give the same run. -/
theorem Meets.foldl_congr {step' : σ → δ → σ} (hstep : ∀ s d, C s d → step s d = step' s d)
    {entries : List δ} {s : σ} (hmeets : Meets step C s entries) :
    entries.foldl step s = entries.foldl step' s := by
  induction entries generalizing s with
  | nil => rfl
  | cons d rest ih =>
    obtain ⟨hd, hrest⟩ := hmeets
    rw [List.foldl_cons, List.foldl_cons, ← hstep s d hd]
    exact ih hrest

/-- A run whose steps meet the condition can be stopped anywhere. -/
theorem Meets.of_append {before after : List δ} {s : σ}
    (hmeets : Meets step C s (before ++ after)) : Meets step C s before := by
  induction before generalizing s with
  | nil => exact trivial
  | cons d rest ih => exact ⟨hmeets.1, ih hmeets.2⟩

/-- The rule, for a condition at every step. -/
theorem forall_prefix_iff_meets (hproperty : ∀ s, I s → P s)
    (hkeep : ∀ s d, I s → C s d → I (step s d)) (hneed : ∀ s d, I s → P (step s d) → C s d)
    (entries : List δ) {s : σ} (h : I s) :
    (∀ handled, handled <+: entries → P (handled.foldl step s)) ↔ Meets step C s entries :=
  forall_prefix_iff (fun _ => trivial) (fun _ _ _ => Iff.rfl) hproperty hkeep hneed entries h

/-- **The rule for the last state.**  A step that does not meet the condition loses the
property for good. -/
theorem final_iff_meets {L : σ → Prop} (hproperty : ∀ s, I s → P s)
    (hkeep : ∀ s d, I s → C s d → I (step s d)) (hlose : ∀ s d, I s → ¬ C s d → L (step s d))
    (hstay : ∀ s d, L s → L (step s d)) (hlost : ∀ s, L s → ¬ P s) (entries : List δ) {s : σ}
    (h : I s) : P (entries.foldl step s) ↔ Meets step C s entries := by
  induction entries generalizing s with
  | nil => exact iff_of_true (hproperty s h) trivial
  | cons d rest ih =>
    by_cases hd : C s d
    · exact (ih (hkeep s d h hd)).trans (and_iff_right hd).symm
    · have hafter : L (rest.foldl step (step s d)) :=
        List.foldlRecOn rest step (hlose s d h hd) fun s' hs' d' _ => hstay s' d' hs'
      exact iff_of_false (hlost _ hafter) fun hmeets => hd hmeets.1

end Runs
