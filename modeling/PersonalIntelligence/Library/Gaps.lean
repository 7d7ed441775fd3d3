import Mathlib.Algebra.Order.Group.Unbundled.Abs
import Mathlib.Algebra.Order.Group.Defs
import Mathlib.Algebra.Order.Group.Abs
import Mathlib.Data.Finset.Max
import Mathlib.Data.List.Chain

/-!
# Gaps between points

Points on a line leave no gap of a given width if each of them but the last has another
one less than that width after it.  This does not depend on how the points are listed;
for a sorted list it says that neighbours are close (`isChain_iff_gapless`).  A new point
leaves no gap exactly if it is close to one that is there (`Gapless.insert_iff`).
-/

namespace Gaps

variable {α : Type} [AddCommGroup α] [LinearOrder α] [IsOrderedAddMonoid α] {gap : α}

/-- Every point but the last has one less than `gap` after it. -/
def Gapless (gap : α) (points : List α) : Prop :=
  ∀ x ∈ points, ∀ y ∈ points, x < y → ∃ z ∈ points, x < z ∧ z - x < gap

variable {points points' : List α}

omit [IsOrderedAddMonoid α] in
theorem Gapless.congr (h : Gapless gap points) (hmem : ∀ x, x ∈ points' ↔ x ∈ points) :
    Gapless gap points' := by
  unfold Gapless
  simp only [hmem]
  exact h

/-- A point before the first of a sorted list. -/
theorem gapless_cons_cons_iff {a b : α} (hgap : 0 < gap)
    (hsorted : (a :: b :: points).Pairwise (· ≤ ·)) :
    Gapless gap (a :: b :: points) ↔ b - a < gap ∧ Gapless gap (b :: points) := by
  obtain ⟨hfirst, hrest⟩ := List.pairwise_cons.mp hsorted
  have hab : a ≤ b := hfirst b List.mem_cons_self
  have hleast : ∀ z ∈ b :: points, b ≤ z := by
    intro z hz
    rcases List.mem_cons.mp hz with rfl | hz
    · exact le_refl z
    · exact (List.pairwise_cons.mp hrest).1 z hz
  constructor
  · intro hall
    refine ⟨?_, fun x hx y hy hlt => ?_⟩
    · rcases hab.eq_or_lt with rfl | hlt
      · rwa [sub_self]
      · obtain ⟨z, hz, haz, hclose⟩ := hall a List.mem_cons_self b
          (List.mem_cons_of_mem _ List.mem_cons_self) hlt
        rcases List.mem_cons.mp hz with rfl | hz
        · exact absurd haz (lt_irrefl z)
        · exact (sub_le_sub_right (hleast z hz) a).trans_lt hclose
    · obtain ⟨z, hz, hxz, hclose⟩ := hall x (List.mem_cons_of_mem _ hx) y
        (List.mem_cons_of_mem _ hy) hlt
      rcases List.mem_cons.mp hz with rfl | hz
      · exact absurd hxz (not_lt_of_ge (hfirst x hx))
      · exact ⟨z, hz, hxz, hclose⟩
  · rintro ⟨hclose, htail⟩ x hx y hy hlt
    -- the later of the two points is not the first
    have hyTail : y ∈ b :: points := by
      refine (List.mem_cons.mp hy).resolve_left ?_
      rintro rfl
      rcases List.mem_cons.mp hx with rfl | hx
      · exact lt_irrefl x hlt
      · exact not_lt_of_ge (hfirst x hx) hlt
    have hlater : x ∈ b :: points → ∃ z ∈ a :: b :: points, x < z ∧ z - x < gap := by
      intro hx
      obtain ⟨z, hz, hxz⟩ := htail x hx y hyTail hlt
      exact ⟨z, List.mem_cons_of_mem _ hz, hxz⟩
    rcases List.mem_cons.mp hx with rfl | hx
    · rcases hab.eq_or_lt with rfl | hlt'
      · exact hlater List.mem_cons_self
      · exact ⟨b, List.mem_cons_of_mem _ List.mem_cons_self, hlt', hclose⟩
    · exact hlater hx

/-- **Neighbours** in a sorted list. -/
theorem isChain_iff_gapless (hgap : 0 < gap) (hsorted : points.Pairwise (· ≤ ·)) :
    points.IsChain (fun x y => y - x < gap) ↔ Gapless gap points := by
  induction points with
  | nil => exact iff_of_true List.isChain_nil fun _ h => absurd h List.not_mem_nil
  | cons a rest ih =>
    have hrest := (List.pairwise_cons.mp hsorted).2
    cases rest with
    | nil =>
      refine iff_of_true (List.isChain_singleton _) fun x hx y hy hlt => ?_
      rw [List.mem_singleton.mp hx, List.mem_singleton.mp hy] at hlt
      exact absurd hlt (lt_irrefl a)
    | cons b rest => rw [List.isChain_cons_cons, ih hrest, gapless_cons_cons_iff hgap hsorted]

omit [AddCommGroup α] [IsOrderedAddMonoid α] in
/-- Of the points that are not after `a` there is a last one. -/
theorem exists_last_le {a x : α} (hx : x ∈ points) (hxa : x ≤ a) :
    ∃ y ∈ points, y ≤ a ∧ ∀ z ∈ points, z ≤ a → z ≤ y := by
  obtain ⟨y, hy, hmax⟩ := (points.toFinset.filter (· ≤ a)).exists_max_image id
    ⟨x, Finset.mem_filter.mpr ⟨List.mem_toFinset.mpr hx, hxa⟩⟩
  obtain ⟨hmem, hya⟩ := Finset.mem_filter.mp hy
  refine ⟨y, List.mem_toFinset.mp hmem, hya, fun z hz hza => ?_⟩
  exact hmax z (Finset.mem_filter.mpr ⟨List.mem_toFinset.mpr hz, hza⟩)

/-- **A new point.** -/
theorem Gapless.insert_iff (hgap : 0 < gap) (h : Gapless gap points) (hne : points ≠ []) {a : α}
    (hmem : ∀ x, x ∈ points' ↔ x = a ∨ x ∈ points) :
    Gapless gap points' ↔ ∃ x ∈ points, |x - a| < gap := by
  constructor
  · intro hall
    by_cases hlater : ∃ y ∈ points, a < y
    · obtain ⟨y, hy, hlt⟩ := hlater
      obtain ⟨z, hz, haz, hclose⟩ := hall a ((hmem a).mpr (.inl rfl)) y ((hmem y).mpr (.inr hy)) hlt
      refine ⟨z, ((hmem z).mp hz).resolve_left haz.ne', ?_⟩
      rwa [abs_of_pos (sub_pos.mpr haz)]
    · -- `a` is the last point, and the one before it is close to it
      have hle : ∀ x ∈ points, x ≤ a := fun x hx => le_of_not_gt fun hlt => hlater ⟨x, hx, hlt⟩
      obtain ⟨x, hx⟩ := List.exists_mem_of_ne_nil _ hne
      obtain ⟨y, hy, hya, hlast⟩ := exists_last_le hx (hle x hx)
      refine ⟨y, hy, ?_⟩
      rcases hya.eq_or_lt with rfl | hlt
      · rwa [sub_self, abs_zero]
      · obtain ⟨z, hz, hyz, hclose⟩ := hall y ((hmem y).mpr (.inr hy)) a ((hmem a).mpr (.inl rfl)) hlt
        rcases (hmem z).mp hz with rfl | hz
        · rwa [abs_sub_comm, abs_of_pos (sub_pos.mpr hyz)]
        · exact absurd (hlast z hz (hle z hz)) (not_le_of_gt hyz)
  · rintro ⟨m, hm, hclose⟩ x hx y hy hlt
    obtain ⟨hafter, hbefore⟩ := abs_sub_lt_iff.mp hclose
    have hold : ∀ x ∈ points, ∀ y ∈ points, x < y → ∃ z ∈ points', x < z ∧ z - x < gap := by
      intro x hx y hy hlt
      obtain ⟨z, hz, hxz⟩ := h x hx y hy hlt
      exact ⟨z, (hmem z).mpr (.inr hz), hxz⟩
    rcases (hmem x).mp hx with rfl | hx
    · have hy := ((hmem y).mp hy).resolve_left hlt.ne'
      rcases lt_or_ge x m with hxm | hmx
      · exact ⟨m, (hmem m).mpr (.inr hm), hxm, hafter⟩
      · -- the last point up to `x` has one after it, and that is after `x`
        obtain ⟨u, hu, hux, hlast⟩ := exists_last_le hm hmx
        obtain ⟨z, hz, huz, hzu⟩ := h u hu y hy (hux.trans_lt hlt)
        have hxz : x < z := lt_of_not_ge fun hzx => not_le_of_gt huz (hlast z hz hzx)
        exact ⟨z, (hmem z).mpr (.inr hz), hxz, (sub_le_sub_left hux z).trans_lt hzu⟩
    · rcases (hmem y).mp hy with rfl | hy
      · by_cases hlater : ∃ y' ∈ points, x < y'
        · obtain ⟨y', hy', hlt'⟩ := hlater
          exact hold x hx y' hy' hlt'
        · have hmx : m ≤ x := le_of_not_gt fun hxm => hlater ⟨m, hm, hxm⟩
          exact ⟨y, (hmem y).mpr (.inl rfl), hlt, (sub_le_sub_left hmx y).trans_lt hbefore⟩
      · exact hold x hx y hy hlt

end Gaps
